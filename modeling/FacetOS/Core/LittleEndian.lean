import Mathlib

/-!
# Little-endian byte strings

Fixed-width little-endian numbers, and the packing of a byte string of any
length into machine words.  A packed string is padded with zero bytes up to a
whole number of words, so only its length is needed to unpack it again.
-/

namespace FacetOS.LittleEndian

/-- The number a little-endian byte string denotes. -/
def leValue (bytes : List UInt8) : ℕ :=
  Nat.ofDigits 256 (bytes.map UInt8.toNat)

/-- The `width` low-order bytes of `value`, least significant first. -/
def leBytes : ℕ → ℕ → List UInt8
  | 0, _ => []
  | width + 1, value => UInt8.ofNat value :: leBytes width (value / 256)

@[simp]
theorem leValue_nil : leValue [] = 0 := rfl

@[simp]
theorem leValue_cons (byte : UInt8) (bytes : List UInt8) :
    leValue (byte :: bytes) = byte.toNat + 256 * leValue bytes := by
  simp [leValue, Nat.ofDigits_cons]

@[simp]
theorem length_leBytes (width value : ℕ) : (leBytes width value).length = width := by
  induction width generalizing value with
  | zero => rfl
  | succ width ih => simp [leBytes, ih]

theorem leValue_lt (bytes : List UInt8) : leValue bytes < 256 ^ bytes.length := by
  induction bytes with
  | nil => simp
  | cons byte bytes ih =>
    have hbyte : byte.toNat < 256 := byte.toNat_lt
    rw [leValue_cons, List.length_cons, pow_succ]
    omega

/-- Encoding keeps the low-order bytes of a number and nothing else. -/
theorem leValue_leBytes (width value : ℕ) :
    leValue (leBytes width value) = value % 256 ^ width := by
  induction width generalizing value with
  | zero => simp [leBytes, Nat.mod_one]
  | succ width ih =>
    rw [leBytes, leValue_cons, ih, pow_succ', Nat.mod_mul]
    simp

variable {width : ℕ}

theorem leValue_leBytes_of_lt {value : ℕ} (hvalue : value < 256 ^ width) :
    leValue (leBytes width value) = value := by
  rw [leValue_leBytes, Nat.mod_eq_of_lt hvalue]

/-- Decoding a byte string and encoding it at a larger width appends zeros. -/
theorem leBytes_leValue_pad (bytes : List UInt8) (padding : ℕ) :
    leBytes (bytes.length + padding) (leValue bytes) =
      bytes ++ List.replicate padding 0 := by
  induction bytes with
  | nil =>
    induction padding with
    | zero => rfl
    | succ padding ih =>
      have hzero : leBytes padding 0 = List.replicate padding 0 := by
        simpa using ih
      simp [leBytes, hzero, List.replicate_succ]
  | cons byte bytes ih =>
    have hbyte : byte.toNat < 256 := byte.toNat_lt
    have hhead : UInt8.ofNat (byte.toNat + 256 * leValue bytes) = byte := by
      apply UInt8.toNat_inj.mp
      simp
    have htail : (byte.toNat + 256 * leValue bytes) / 256 = leValue bytes := by
      omega
    rw [List.length_cons, Nat.add_right_comm, leValue_cons, leBytes, hhead,
      htail, ih, List.cons_append]

theorem leBytes_leValue (bytes : List UInt8) :
    leBytes bytes.length (leValue bytes) = bytes := by
  simpa using leBytes_leValue_pad bytes 0

/-- Only the low bytes of a number are written. -/
theorem leBytes_mod (width value : ℕ) :
    leBytes width (value % 256 ^ width) = leBytes width value := by
  have hbytes := leBytes_leValue (leBytes width value)
  rwa [length_leBytes, leValue_leBytes] at hbytes

theorem leBytes_mod_of_le {wide : ℕ} (hle : width ≤ wide) (value : ℕ) :
    leBytes width (value % 256 ^ wide) = leBytes width value := by
  rw [← leBytes_mod width (value % 256 ^ wide), Nat.mod_mod_of_dvd _ (pow_dvd_pow 256 hle),
    leBytes_mod]

/-! ## Packing into words -/

/-- Number of `width`-byte words that hold `size` bytes. -/
def wordCount (width size : ℕ) : ℕ :=
  (size + width - 1) / width

/-- Word `index` of a byte string packed into `width`-byte words. -/
def packedWord (width : ℕ) (bytes : List UInt8) (index : ℕ) : ℕ :=
  leValue ((bytes.drop (width * index)).take width)

/-- The first `size` bytes of a sequence of `width`-byte words. -/
def unpackWords (width size : ℕ) (word : ℕ → ℕ) : List UInt8 :=
  (List.range (wordCount width size)).flatMap fun index =>
    (leBytes width (word index)).take (size - width * index)

theorem packedWord_lt (width : ℕ) (bytes : List UInt8) (index : ℕ) :
    packedWord width bytes index < 256 ^ width := by
  refine lt_of_lt_of_le (leValue_lt _) (Nat.pow_le_pow_right (by decide) ?_)
  exact List.length_take_le _ _

theorem le_width_mul_wordCount (size : ℕ) (hwidth : 0 < width) :
    size ≤ width * wordCount width size := by
  have hlt := Nat.lt_mul_div_succ (size + width - 1) hwidth
  rw [wordCount]
  rw [Nat.mul_succ] at hlt
  omega

/-- Unpacking produces exactly the requested number of bytes. -/
theorem length_unpackWords (size : ℕ) (word : ℕ → ℕ) (hwidth : 0 < width) :
    (unpackWords width size word).length = size := by
  have hprefix (count : ℕ) :
      ((List.range count).flatMap fun index =>
        (leBytes width (word index)).take (size - width * index)).length =
        min size (width * count) := by
    induction count with
    | zero => simp
    | succ count ih =>
      rw [List.range_succ, List.flatMap_append, List.length_append, ih,
        Nat.mul_succ]
      simp only [List.flatMap_cons, List.flatMap_nil, List.append_nil,
        List.length_take, length_leBytes]
      omega
  rw [unpackWords, hprefix]
  exact Nat.min_eq_left (le_width_mul_wordCount size hwidth)

/-- Cutting a string into consecutive chunks and concatenating them restores
the part of the string that the chunks cover. -/
theorem flatMap_chunks (width : ℕ) (bytes : List UInt8) (count : ℕ) :
    ((List.range count).flatMap fun index =>
      (bytes.drop (width * index)).take width) = bytes.take (width * count) := by
  induction count with
  | zero => simp
  | succ count ih =>
    rw [List.range_succ, List.flatMap_append, ih, Nat.mul_succ, List.take_add]
    simp

/-- One packed word gives its own chunk back. -/
theorem leBytes_packedWord (width : ℕ) (bytes : List UInt8) (index : ℕ) :
    (leBytes width (packedWord width bytes index)).take
        (bytes.length - width * index) =
      (bytes.drop (width * index)).take width := by
  set chunk := (bytes.drop (width * index)).take width with hchunk
  have hlength : chunk.length = min width (bytes.length - width * index) := by
    simp [hchunk]
  obtain ⟨padding, hpadding⟩ : ∃ padding, width = chunk.length + padding :=
    Nat.exists_eq_add_of_le (by omega)
  have hencoded : leBytes width (packedWord width bytes index) =
      chunk ++ List.replicate padding 0 := by
    rw [packedWord, ← hchunk, hpadding, ← leBytes_leValue_pad, ← hpadding]
  rw [hencoded, List.take_append]
  rcases Nat.le_total width (bytes.length - width * index) with hfull | hpart
  · have hnone : padding = 0 := by omega
    rw [List.take_of_length_le (by omega), hnone]
    simp
  · have hexact : chunk.length = bytes.length - width * index := by omega
    simp [← hexact]

/-- A string packed into words is recovered from the words and its length. -/
theorem unpackWords_packedWord (bytes : List UInt8) (word : ℕ → ℕ) (hwidth : 0 < width)
    (hword : ∀ index < wordCount width bytes.length,
      word index = packedWord width bytes index) :
    unpackWords width bytes.length word = bytes := by
  have hchunks : unpackWords width bytes.length word =
      (List.range (wordCount width bytes.length)).flatMap fun index =>
        (bytes.drop (width * index)).take width := by
    apply List.flatMap_congr
    intro index hindex
    rw [hword index (List.mem_range.mp hindex), leBytes_packedWord]
  rw [hchunks, flatMap_chunks, List.take_of_length_le]
  exact le_width_mul_wordCount bytes.length hwidth

end FacetOS.LittleEndian
