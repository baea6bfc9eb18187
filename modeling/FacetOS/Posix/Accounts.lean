import FacetOS.Core.Records
import FacetOS.FileView.Operations
import FacetOS.Config.Sources

/-!
# The account files and their readers

The credential store prints the configured users as `/etc/passwd` and
`/etc/shadow`; `getpwnam` and `getspnam` of the POSIX library read them back.
The printer copies the texts of a user as they stand; the readers end a field at a
colon and a line at a newline.  They read a file by one call to the POSIX view, and the
client refuses a reply whose payload is not inline.
-/

namespace FacetOS.Posix

open Records FileView Config LittleEndian

/-! ## The readers -/

def colon : UInt8 := 58

def newline : UInt8 := 10

/-- The size of the static buffers. -/
def bufferSize : ℕ := 512

/-- Why there is no entry: `ENOENT` or `EIO`. -/
inductive LookupError
  | notFound
  | inputOutput
  deriving DecidableEq, Repr

structure Passwd where
  name : List UInt8
  passwd : List UInt8
  uid : UInt32
  gid : UInt32
  gecos : List UInt8
  dir : List UInt8
  shell : List UInt8
  deriving DecidableEq

structure Spwd where
  namp : List UInt8
  pwdp : List UInt8
  deriving DecidableEq

def field (cursor : List UInt8) : Option (List UInt8 × List UInt8) :=
  cut colon cursor

/-- `read` at the start of a file.  The reply of `read_fd` carries the bytes as an array
with its count; the client answers a reply that is not inline by an error. -/
def readStart (file : List UInt8) (count : ℕ) : Except LookupError (List UInt8) :=
  let data := file.take count
  if (leBytes 4 data.length ++ data).length > Rpc.rpcMaxInlinePayload then .error .inputOutput
  else .ok data

def loadLine (file name : List UInt8) : Except LookupError (List UInt8) :=
  match readStart file (bufferSize - 1) with
  | .error failure => .error failure
  | .ok data =>
    let buffer := cString data
    match findLine newline colon name buffer.length buffer with
    | some line => .ok line
    | none => .error .notFound

def isDigit (c : UInt8) : Bool :=
  48 ≤ c && c ≤ 57

/-- `strtoul` in base ten, without its end pointer. -/
def strtoul (text : List UInt8) : UInt64 :=
  (text.takeWhile isDigit).foldl (fun value c => value * 10 + (c - 48).toUInt64) 0

def passwdEntry (line : List UInt8) : Option Passwd := do
  let (name, cursor) ← field line
  let (passwd, cursor) ← field cursor
  let (uid, cursor) ← field cursor
  let (gid, cursor) ← field cursor
  let (gecos, cursor) ← field cursor
  let (dir, cursor) ← field cursor
  return {
    name := name
    passwd := passwd
    uid := (strtoul uid).toUInt32
    gid := (strtoul gid).toUInt32
    gecos := gecos
    dir := dir
    shell := cursor.takeWhile (fun c => c ≠ newline) }

def shadowEntry (line : List UInt8) : Option Spwd := do
  let (namp, cursor) ← field line
  let (pwdp, _) ← field cursor
  return ⟨namp, pwdp⟩

/-- The entry of a line, or `EIO` when a field is missing. -/
def entryOf {α : Type} (parse : List UInt8 → Option α) (line : List UInt8) :
    Except LookupError α :=
  match parse line with
  | some entry => .ok entry
  | none => .error .inputOutput

def getpwnam (file name : List UInt8) : Except LookupError Passwd :=
  loadLine file name >>= entryOf passwdEntry

def getspnam (file name : List UInt8) : Except LookupError Spwd :=
  loadLine file name >>= entryOf shadowEntry

/-! ## Printed numbers -/

theorem toNat_of_mem_toDigits {value : ℕ} {c : Char} (hc : c ∈ Nat.toDigits 10 value) :
    48 ≤ c.toNat ∧ c.toNat ≤ 57 := by
  have hdigit := Nat.isDigit_of_mem_toDigits (by decide) (by decide) hc
  rw [Char.isDigit, Bool.and_eq_true, decide_eq_true_eq, decide_eq_true_eq] at hdigit
  exact ⟨UInt32.le_iff_toNat_le.mp hdigit.1, UInt32.le_iff_toNat_le.mp hdigit.2⟩

theorem toNat_of_mem_decimal {value : ℕ} {c : UInt8} (hc : c ∈ decimal value) :
    48 ≤ c.toNat ∧ c.toNat ≤ 57 := by
  rw [decimal_eq, List.mem_map] at hc
  obtain ⟨digit, hdigit, rfl⟩ := hc
  have hrange := toNat_of_mem_toDigits hdigit
  rw [Nat.toUInt8_eq, UInt8.toNat_ofNat', Nat.mod_eq_of_lt (by omega)]
  exact hrange

theorem not_mem_decimal {c : UInt8} (hc : c.toNat < 48 ∨ 57 < c.toNat) (value : ℕ) :
    c ∉ decimal value := by
  intro hmem
  have hrange := toNat_of_mem_decimal hmem
  omega

theorem takeWhile_decimal (value : ℕ) : (decimal value).takeWhile isDigit = decimal value := by
  rw [List.takeWhile_eq_self_iff]
  intro c hc
  have hrange := toNat_of_mem_decimal hc
  rw [isDigit, Bool.and_eq_true, decide_eq_true_eq, decide_eq_true_eq]
  exact ⟨UInt8.le_iff_toNat_le.mpr hrange.1, UInt8.le_iff_toNat_le.mpr hrange.2⟩

theorem digit_value {c : Char} (hc : 48 ≤ c.toNat ∧ c.toNat ≤ 57) :
    (c.toNat.toUInt8 - 48).toUInt64 = UInt64.ofNat (c.toNat - 48) := by
  obtain ⟨hlow, hhigh⟩ := hc
  generalize c.toNat = value at hlow hhigh
  interval_cases value <;> rfl

theorem foldl_digits {digits : List Char}
    (hdigits : ∀ c ∈ digits, 48 ≤ c.toNat ∧ c.toNat ≤ 57) (value : ℕ) :
    (digits.map (fun c => c.toNat.toUInt8)).foldl
        (fun value c => value * 10 + (c - 48).toUInt64) (UInt64.ofNat value) =
      UInt64.ofNat (Nat.ofDigitChars 10 digits value) := by
  induction digits generalizing value with
  | nil => rfl
  | cons digit digits ih =>
    rw [List.forall_mem_cons] at hdigits
    have hstep : UInt64.ofNat value * 10 + (digit.toNat.toUInt8 - 48).toUInt64 =
        UInt64.ofNat (10 * value + (digit.toNat - 48)) := by
      rw [digit_value hdigits.1, UInt64.ofNat_add, UInt64.ofNat_mul, mul_comm]
      rfl
    rw [List.map_cons, List.foldl_cons, hstep, ih hdigits.2, Nat.ofDigitChars_eq_foldl,
      Nat.ofDigitChars_eq_foldl, List.foldl_cons]
    rfl

/-- A printed id is read back. -/
theorem strtoul_decimal (id : UInt32) : (strtoul (decimal id.toNat)).toUInt32 = id := by
  have hvalue : strtoul (decimal id.toNat) = UInt64.ofNat id.toNat := by
    rw [strtoul, takeWhile_decimal, decimal_eq]
    calc
      _ = UInt64.ofNat (Nat.ofDigitChars 10 (Nat.toDigits 10 id.toNat) 0) :=
          foldl_digits (fun c hc => toNat_of_mem_toDigits hc) 0
      _ = UInt64.ofNat id.toNat := by
          rw [Nat.ofDigitChars_toDigits (by decide) (by decide)]
  rw [hvalue]
  simp

/-! ## Printed lines -/

variable (user : UserTexts)

/-- The line of a user in `/etc/passwd` without its newline. -/
def passwdBody : List UInt8 :=
  user.name ++ colon :: (ascii "x" ++ colon :: (decimal user.uid.toNat ++ colon ::
    (decimal user.gid.toNat ++ colon :: (user.name ++ colon :: (user.home ++ colon ::
      user.shell)))))

def shadowBody : List UInt8 :=
  user.name ++ colon :: (user.hash ++ colon :: List.replicate 6 colon)

theorem passwdLine_eq : passwdLine user = passwdBody user ++ [newline] := by
  have hfirst : ascii ":x:" = colon :: (ascii "x" ++ [colon]) := by decide
  have hcolon : ascii ":" = [colon] := by decide
  have hnewline : ascii "\n" = [newline] := by decide
  rw [passwdLine, passwdBody, hfirst, hcolon, hnewline]
  simp only [List.append_assoc, List.cons_append, List.nil_append]

theorem shadowLine_eq : shadowLine user = shadowBody user ++ [newline] := by
  have hcolon : ascii ":" = [colon] := by decide
  have hlast : ascii ":::::::\n" = colon :: (List.replicate 6 colon ++ [newline]) := by decide
  rw [shadowLine, shadowBody, hcolon, hlast]
  simp only [List.append_assoc, List.cons_append, List.nil_append]

variable (users : List UserTexts)

/-- The files as printed, when nothing is refused. -/
def passwdFile : List UInt8 :=
  joined newline (users.map passwdBody)

def shadowFile : List UInt8 :=
  joined newline (users.map shadowBody)

theorem passwdFile_cons : passwdFile (user :: users) = passwdLine user ++ passwdFile users := by
  rw [passwdFile, List.map_cons, joined_cons, passwdLine_eq, List.append_assoc]
  rfl

theorem shadowFile_cons : shadowFile (user :: users) = shadowLine user ++ shadowFile users := by
  rw [shadowFile, List.map_cons, joined_cons, shadowLine_eq, List.append_assoc]
  rfl

variable {users : List UserTexts}

/-- Printing succeeds exactly when both buffers have room for everything. -/
theorem printUsers_eq_some_iff {passwdRoom shadowRoom : ℕ}
    {passwd shadow : List UInt8} {files : List UInt8 × List UInt8}
    (hpasswd : passwd.length < passwdRoom) (hshadow : shadow.length < shadowRoom) :
    printUsers passwdRoom shadowRoom users passwd shadow = some files ↔
      ((passwd ++ passwdFile users).length < passwdRoom ∧
        (shadow ++ shadowFile users).length < shadowRoom) ∧
      files = (passwd ++ passwdFile users, shadow ++ shadowFile users) := by
  induction users generalizing passwd shadow with
  | nil => simp [printUsers, passwdFile, shadowFile, hpasswd, hshadow, eq_comm]
  | cons user users ih =>
    rw [passwdFile_cons, shadowFile_cons, ← List.append_assoc, ← List.append_assoc, printUsers]
    have hlong {room : ℕ} {text line rest : List UInt8} (hroom : room - text.length ≤ line.length) :
        ¬(text ++ line ++ rest).length < room := by
      simp only [List.length_append]
      omega
    by_cases hfirst : passwdRoom - passwd.length ≤ (passwdLine user).length
    · simp only [printLine, if_pos hfirst, hlong hfirst, Option.bind_eq_bind, Option.bind_none,
        reduceCtorEq, false_and]
    by_cases hsecond : shadowRoom - shadow.length ≤ (shadowLine user).length
    · simp only [printLine, if_neg hfirst, if_pos hsecond, hlong hsecond, Option.bind_eq_bind,
        Option.bind_some, Option.bind_none, reduceCtorEq, and_false, false_and]
    simp only [printLine, if_neg hfirst, if_neg hsecond, Option.bind_eq_bind, Option.bind_some]
    apply ih <;> rw [List.length_append] <;> omega

/-! ## Lengths -/

variable (users)

def passwdLength : ℕ :=
  (users.map (fun user => 2 * user.name.length + (decimal user.uid.toNat).length +
    (decimal user.gid.toNat).length + user.home.length + user.shell.length + 8)).sum

def shadowLength : ℕ :=
  (users.map (fun user => user.name.length + user.hash.length + 9)).sum

/-- What the buffer of `/etc/passwd` reserves 40 bytes a user for. -/
def unreserved : ℕ :=
  (users.map (fun user => user.name.length + (decimal user.uid.toNat).length +
    (decimal user.gid.toNat).length)).sum

theorem length_passwdBody (user : UserTexts) :
    (passwdBody user).length + 1 = 2 * user.name.length + (decimal user.uid.toNat).length +
      (decimal user.gid.toNat).length + user.home.length + user.shell.length + 8 := by
  have hx : (ascii "x").length = 1 := by decide
  simp only [passwdBody, List.length_append, List.length_cons, hx]
  omega

theorem length_shadowBody (user : UserTexts) :
    (shadowBody user).length = user.name.length + user.hash.length + 8 := by
  simp only [shadowBody, List.length_append, List.length_cons, List.length_replicate]
  omega

theorem length_passwdFile : (passwdFile users).length = passwdLength users := by
  rw [passwdFile, length_joined, List.map_map, passwdLength, ← funext length_passwdBody]
  rfl

theorem length_shadowFile : (shadowFile users).length = shadowLength users := by
  simp only [shadowFile, length_joined, List.map_map, shadowLength, Function.comp_def,
    length_shadowBody]

theorem passwdLength_lt_iff :
    passwdLength users < passwdSize users ↔ unreserved users ≤ 40 * users.length := by
  have hsum : passwdLength users + 40 * users.length + 1 = unreserved users + passwdSize users := by
    induction users with
    | nil => rfl
    | cons user users ih =>
      simp only [passwdLength, unreserved, passwdSize, List.map_cons, List.sum_cons,
        List.length_cons] at ih ⊢
      omega
  omega

theorem shadowLength_lt : shadowLength users < shadowSize users := by
  induction users with
  | nil => decide
  | cons user users ih =>
    simp only [shadowLength, shadowSize, List.map_cons, List.sum_cons] at ih ⊢
    omega

variable {users}

/-! ## The files of a configuration -/

/-- Texts of configured users: the numbers are given and no text holds a zero byte. -/
structure CleanTexts (users : List UserTexts) : Prop where
  name : ∀ user ∈ users, 0 ∉ user.name
  home : ∀ user ∈ users, 0 ∉ user.home
  shell : ∀ user ∈ users, 0 ∉ user.shell
  hash : ∀ user ∈ users, 0 ∉ user.hash

theorem zero_not_mem_joined {lines : List (List UInt8)} (hlines : ∀ line ∈ lines, 0 ∉ line) :
    0 ∉ joined newline lines := by
  simpa [joined, newline] using hlines

theorem zero_not_mem_passwdFile (hclean : CleanTexts users) :
    0 ∉ passwdFile users := by
  apply zero_not_mem_joined
  intro line hline
  obtain ⟨user, huser, rfl⟩ := List.mem_map.mp hline
  have hcolon : (0 : UInt8) ≠ colon := by decide
  have hx : (0 : UInt8) ∉ ascii "x" := by decide
  simp [passwdBody, hclean.name user huser, hclean.home user huser, hclean.shell user huser,
    not_mem_decimal, hcolon, hx]

theorem zero_not_mem_shadowFile (hclean : CleanTexts users) :
    0 ∉ shadowFile users := by
  apply zero_not_mem_joined
  intro line hline
  obtain ⟨user, huser, rfl⟩ := List.mem_map.mp hline
  have hcolon : (0 : UInt8) ≠ colon := by decide
  simp [shadowBody, hclean.name user huser, hclean.hash user huser, hcolon]

variable {line file name : List UInt8} {entry : Passwd}

/-! ## Reading a line back -/

/-- The whole file is read, or nothing of it. -/
theorem readStart_eq (file : List UInt8) :
    readStart file (bufferSize - 1) =
      if file.length ≤ 508 then .ok file else .error .inputOutput := by
  simp only [readStart, bufferSize, Rpc.rpcMaxInlinePayload, List.length_append, length_leBytes,
    List.length_take]
  by_cases hshort : file.length ≤ 508
  · rw [if_pos hshort, if_neg (by omega), List.take_of_length_le (by omega)]
  · rw [if_neg hshort, if_pos (by omega)]

theorem loadLine_eq (hzero : 0 ∉ file) (name : List UInt8) :
    loadLine file name =
      if file.length ≤ 508 then
        match findLine newline colon name file.length file with
        | some line => .ok line
        | none => .error .notFound
      else .error .inputOutput := by
  rw [loadLine, readStart_eq]
  by_cases hshort : file.length ≤ 508
  · rw [if_pos hshort, if_pos hshort]
    dsimp only
    rw [cString_eq_self hzero]
  · rw [if_neg hshort, if_neg hshort]

theorem loadLine_eq_ok (hzero : 0 ∉ file) :
    loadLine file name = .ok line ↔
      file.length ≤ 508 ∧ findLine newline colon name file.length file = some line := by
  rw [loadLine_eq hzero]
  by_cases hshort : file.length ≤ 508 <;> simp only [hshort, if_true, if_false, true_and, false_and]
  · cases findLine newline colon name file.length file <;> simp
  · simp

theorem entry_of_line {α : Type} {parse : List UInt8 → Option α} {entry : α}
    (hload : loadLine file name = .ok line) (hentry : parse line = some entry) :
    (loadLine file name >>= entryOf parse) = .ok entry := by
  rw [hload]
  change entryOf parse line = .ok entry
  rw [entryOf, hentry]

theorem entry_ok {α : Type} {parse : List UInt8 → Option α} {entry : α}
    (hget : (loadLine file name >>= entryOf parse) = .ok entry) :
    ∃ line, loadLine file name = .ok line ∧ parse line = some entry := by
  obtain ⟨line, hload, hentry⟩ := Passes.bind_eq_ok.mp hget
  refine ⟨line, hload, ?_⟩
  cases hparse : parse line with
  | none => simp [entryOf, hparse] at hentry
  | some found => simpa [entryOf, hparse] using hentry

theorem passwdEntry_some (hentry : passwdEntry line = some entry) :
    ∃ first second third fourth fifth sixth uid gid,
      cut colon line = some (entry.name, first) ∧ cut colon first = some (entry.passwd, second) ∧
      cut colon second = some (uid, third) ∧ cut colon third = some (gid, fourth) ∧
      cut colon fourth = some (entry.gecos, fifth) ∧ cut colon fifth = some (entry.dir, sixth) ∧
      entry.shell = sixth.takeWhile (fun c => c ≠ newline) := by
  simp only [passwdEntry, field, Option.bind_eq_bind, Option.bind_eq_some_iff, Prod.exists,
    Option.pure_def, Option.some.injEq] at hentry
  obtain ⟨name, first, hname, passwd, second, hpasswd, uid, third, huid, gid, fourth, hgid, gecos,
    fifth, hgecos, dir, sixth, hdir, rfl⟩ := hentry
  exact ⟨first, second, third, fourth, fifth, sixth, uid, gid, hname, hpasswd, huid, hgid, hgecos,
    hdir, rfl⟩

theorem shadowEntry_some {entry : Spwd} (hentry : shadowEntry line = some entry) :
    ∃ first second, cut colon line = some (entry.namp, first) ∧
      cut colon first = some (entry.pwdp, second) := by
  simp only [shadowEntry, field, Option.bind_eq_bind, Option.bind_eq_some_iff, Prod.exists,
    Option.pure_def, Option.some.injEq] at hentry
  obtain ⟨namp, first, hnamp, pwdp, second, hpwdp, rfl⟩ := hentry
  exact ⟨first, second, hnamp, hpwdp⟩

/-- The fields of an entry hold no colon, and no newline when the line holds none. -/
theorem passwdEntry_clean (hline : newline ∉ line) (hentry : passwdEntry line = some entry) :
    colon ∉ entry.name ∧ newline ∉ entry.name ∧ colon ∉ entry.dir ∧ newline ∉ entry.dir ∧
      newline ∉ entry.shell := by
  obtain ⟨first, second, third, fourth, fifth, sixth, uid, gid, hname, hpasswd, huid, hgid, hgecos,
    hdir, hshell⟩ := passwdEntry_some hentry
  obtain ⟨rfl, hnameColon⟩ := cut_some hname
  obtain ⟨rfl, -⟩ := cut_some hpasswd
  obtain ⟨rfl, -⟩ := cut_some huid
  obtain ⟨rfl, -⟩ := cut_some hgid
  obtain ⟨rfl, -⟩ := cut_some hgecos
  obtain ⟨rfl, hdirColon⟩ := cut_some hdir
  simp only [List.mem_append, List.mem_cons, not_or] at hline
  obtain ⟨hnameLine, -, -, -, -, -, -, -, -, -, hdirLine, -, -⟩ := hline
  rw [hshell]
  exact ⟨hnameColon, hnameLine, hdirColon, hdirLine, not_mem_takeWhile newline sixth⟩

theorem shadowEntry_clean {entry : Spwd} (hline : newline ∉ line)
    (hentry : shadowEntry line = some entry) : colon ∉ entry.pwdp ∧ newline ∉ entry.pwdp := by
  obtain ⟨first, second, hnamp, hpwdp⟩ := shadowEntry_some hentry
  obtain ⟨rfl, -⟩ := cut_some hnamp
  obtain ⟨rfl, hcolon⟩ := cut_some hpwdp
  simp only [List.mem_append, List.mem_cons, not_or] at hline
  obtain ⟨-, -, hpwdpLine, -, -⟩ := hline
  exact ⟨hcolon, hpwdpLine⟩

section

variable {user : UserTexts} (hname : colon ∉ user.name)

include hname

/-- The entry of a whole line is the user's. -/
theorem passwdEntry_body (hhome : colon ∉ user.home) (hshell : newline ∉ user.shell) :
    passwdEntry (passwdBody user) =
      some ⟨user.name, ascii "x", user.uid, user.gid, user.name, user.home, user.shell⟩ := by
  have hx : colon ∉ ascii "x" := by decide
  have hdigits : ∀ value, colon ∉ decimal value := not_mem_decimal (by decide)
  simp only [passwdEntry, field, passwdBody, cut_append hname, cut_append hx,
    cut_append (hdigits _), cut_append hhome, takeWhile_of_not_mem hshell, strtoul_decimal,
    Option.bind_eq_bind, Option.bind_some, Option.pure_def]

theorem shadowEntry_body (hhash : colon ∉ user.hash) :
    shadowEntry (shadowBody user) = some ⟨user.name, user.hash⟩ := by
  simp only [shadowEntry, shadowBody, field, cut_append hname, cut_append hhash,
    Option.bind_eq_bind, Option.bind_some, Option.pure_def]

end

/-! ## When the files are read back -/

/-- No text of the user ends a field or a line early. -/
@[mk_iff]
structure PlainTexts (user : UserTexts) : Prop where
  nameColon : colon ∉ user.name
  nameNewline : newline ∉ user.name
  homeColon : colon ∉ user.home
  homeNewline : newline ∉ user.home
  hashColon : colon ∉ user.hash
  hashNewline : newline ∉ user.hash
  shellNewline : newline ∉ user.shell

/-- The texts are plain, the printer has room for the names and numbers, and the
replies that carry the two files are inline. -/
@[mk_iff]
structure AccountsFit (users : List UserTexts) : Prop where
  plain : ∀ user ∈ users, PlainTexts user
  printed : unreserved users ≤ 40 * users.length
  passwd : passwdLength users ≤ 508
  shadow : shadowLength users ≤ 508

instance (user : UserTexts) : Decidable (PlainTexts user) :=
  decidable_of_iff _ (plainTexts_iff user).symm

instance (users : List UserTexts) : Decidable (AccountsFit users) :=
  decidable_of_iff _ (accountsFit_iff users).symm

section

variable (hplain : ∀ user ∈ users, PlainTexts user)

include hplain

theorem newline_not_mem_passwdBody : ∀ user ∈ users, newline ∉ passwdBody user := by
  intro user huser
  have hcolon : newline ≠ colon := by decide
  have hx : newline ∉ ascii "x" := by decide
  have hdigits : ∀ value, newline ∉ decimal value := not_mem_decimal (by decide)
  have hclean := hplain user huser
  simp [passwdBody, hclean.nameNewline, hclean.homeNewline, hclean.shellNewline, hdigits, hcolon,
    hx]

theorem newline_not_mem_shadowBody : ∀ user ∈ users, newline ∉ shadowBody user := by
  intro user huser
  have hcolon : newline ≠ colon := by decide
  simp [shadowBody, (hplain user huser).nameNewline, (hplain user huser).hashNewline, hcolon]

theorem key_passwdBody : ∀ user ∈ users, key colon (passwdBody user) = user.name :=
  fun user huser => key_append (hplain user huser).nameColon _

theorem key_shadowBody : ∀ user ∈ users, key colon (shadowBody user) = user.name :=
  fun user huser => key_append (hplain user huser).nameColon _

end

section

variable (hclean : CleanTexts users)
variable (hnames : (users.map UserTexts.name).Nodup)

section

variable (hfit : AccountsFit users)

include hfit hclean

include hnames in
theorem getpwnam_of_fit {user : UserTexts} (huser : user ∈ users) :
    getpwnam (passwdFile users) user.name =
      .ok ⟨user.name, ascii "x", user.uid, user.gid, user.name, user.home, user.shell⟩ := by
  have hplain := hfit.plain user huser
  have hfind := findLine_record (newline_not_mem_passwdBody hfit.plain)
    (key_passwdBody hfit.plain) hnames huser
  exact entry_of_line ((loadLine_eq_ok (zero_not_mem_passwdFile hclean)).mpr
      ⟨length_passwdFile users ▸ hfit.passwd, hfind⟩)
    (passwdEntry_body hplain.nameColon hplain.homeColon hplain.shellNewline)

include hnames in
theorem getspnam_of_fit {user : UserTexts} (huser : user ∈ users) :
    getspnam (shadowFile users) user.name = .ok ⟨user.name, user.hash⟩ := by
  have hplain := hfit.plain user huser
  have hfind := findLine_record (newline_not_mem_shadowBody hfit.plain)
    (key_shadowBody hfit.plain) hnames huser
  exact entry_of_line ((loadLine_eq_ok (zero_not_mem_shadowFile hclean)).mpr
      ⟨length_shadowFile users ▸ hfit.shadow, hfind⟩)
    (shadowEntry_body hplain.nameColon hplain.hashColon)

theorem not_found_of_fit (hname : ∀ user ∈ users, user.name ≠ name) :
    getpwnam (passwdFile users) name = .error .notFound ∧
      getspnam (shadowFile users) name = .error .notFound := by
  have hpasswd := findLine_unknown (newline_not_mem_passwdBody hfit.plain)
    (key_passwdBody hfit.plain) hname
  have hshadow := findLine_unknown (newline_not_mem_shadowBody hfit.plain)
    (key_shadowBody hfit.plain) hname
  rw [← passwdFile] at hpasswd
  rw [← shadowFile] at hshadow
  rw [getpwnam, loadLine_eq (zero_not_mem_passwdFile hclean),
    if_pos (length_passwdFile users ▸ hfit.passwd), hpasswd, getspnam,
    loadLine_eq (zero_not_mem_shadowFile hclean),
    if_pos (length_shadowFile users ▸ hfit.shadow), hshadow]
  exact ⟨rfl, rfl⟩

end

/-! ## What reading back demands -/

/-- Each user's entries are those of the user. -/
structure TextsFound (users : List UserTexts) (passwd shadow : List UInt8) : Prop where
  passwd : ∀ user ∈ users, ∃ entry, getpwnam passwd user.name = .ok entry ∧
    entry.name = user.name ∧ entry.dir = user.home ∧ entry.shell = user.shell
  shadow : ∀ user ∈ users, ∃ entry, getspnam shadow user.name = .ok entry ∧
    entry.pwdp = user.hash

variable (hfound : TextsFound users (passwdFile users) (shadowFile users))

include hclean hfound

theorem plainTexts_of_found : ∀ user ∈ users, PlainTexts user := by
  intro user huser
  obtain ⟨entry, hget, hname, hdir, hshell⟩ := hfound.passwd user huser
  obtain ⟨line, hload, hentry⟩ := entry_ok hget
  have hline := (findLine_some ((loadLine_eq_ok (zero_not_mem_passwdFile hclean)).mp hload).2).1
  obtain ⟨hnameColon, hnameNewline, hdirColon, hdirNewline, hshellNewline⟩ :=
    passwdEntry_clean hline hentry
  obtain ⟨secret, hgetSecret, hhash⟩ := hfound.shadow user huser
  obtain ⟨secretLine, hloadSecret, hsecret⟩ := entry_ok hgetSecret
  have hsecretLine :=
    (findLine_some ((loadLine_eq_ok (zero_not_mem_shadowFile hclean)).mp hloadSecret).2).1
  obtain ⟨hhashColon, hhashNewline⟩ := shadowEntry_clean hsecretLine hsecret
  rw [hname] at hnameColon hnameNewline
  rw [hdir] at hdirColon hdirNewline
  rw [hshell] at hshellNewline
  rw [hhash] at hhashColon hhashNewline
  exact ⟨hnameColon, hnameNewline, hdirColon, hdirNewline, hhashColon, hhashNewline, hshellNewline⟩

/-- A file of which a user's line is found was read, and was therefore short. -/
theorem lengths_le_of_found : passwdLength users ≤ 508 ∧ shadowLength users ≤ 508 := by
  rcases users with _ | ⟨user, users⟩
  · simp [passwdLength, shadowLength]
  obtain ⟨entry, hget, -⟩ := hfound.passwd user List.mem_cons_self
  obtain ⟨secret, hgetSecret, -⟩ := hfound.shadow user List.mem_cons_self
  obtain ⟨line, hload, -⟩ := entry_ok hget
  obtain ⟨secretLine, hloadSecret, -⟩ := entry_ok hgetSecret
  rw [← length_passwdFile, ← length_shadowFile]
  exact ⟨((loadLine_eq_ok (zero_not_mem_passwdFile hclean)).mp hload).1,
    ((loadLine_eq_ok (zero_not_mem_shadowFile hclean)).mp hloadSecret).1⟩

end

/-! ## The configured users -/

theorem userTexts_eq_some {user : FacetConfigUser} (haccepted : AcceptedUser user)
    (hshell : user.posixShell ≠ none) :
    ∃ texts, userTexts user = some texts ∧ user.name = some texts.name ∧
      user.homePath = some texts.home ∧ user.posixShell = some texts.shell ∧
      user.passwordHash = some texts.hash ∧ user.uid = some texts.uid ∧
      user.gid = some texts.gid := by
  obtain ⟨name, hname, -⟩ := haccepted.name
  obtain ⟨home, hhome⟩ := Option.ne_none_iff_exists'.mp haccepted.homePath
  obtain ⟨shell, hgiven⟩ := Option.ne_none_iff_exists'.mp hshell
  obtain ⟨hash, hhash⟩ := Option.ne_none_iff_exists'.mp haccepted.passwordHash
  obtain ⟨uid, huid⟩ := Option.ne_none_iff_exists'.mp haccepted.uid
  obtain ⟨gid, hgid⟩ := Option.ne_none_iff_exists'.mp haccepted.gid
  refine ⟨⟨name, home, shell, hash, uid, gid⟩, ?_, hname, hhome, hgiven, hhash, huid, hgid⟩
  simp [userTexts, hname, hhome, hgiven, hhash, huid, hgid]

section

variable {users : List FacetConfigUser}
variable (haccepted : ∀ user ∈ users, AcceptedUser user)
variable (hshells : ∀ user ∈ users, user.posixShell ≠ none)

include haccepted hshells

theorem exists_of_mem_userTexts {texts : UserTexts} (htexts : texts ∈ users.filterMap userTexts) :
    ∃ user ∈ users, user.name = some texts.name ∧ user.homePath = some texts.home ∧
      user.posixShell = some texts.shell ∧ user.passwordHash = some texts.hash := by
  obtain ⟨user, huser, hsome⟩ := List.mem_filterMap.mp htexts
  obtain ⟨given, hgiven, hname, hhome, hshell, hhash, -⟩ :=
    userTexts_eq_some (haccepted user huser) (hshells user huser)
  obtain rfl := Option.some.inj (hgiven.symm.trans hsome)
  exact ⟨user, huser, hname, hhome, hshell, hhash⟩

theorem mapM_userTexts : users.mapM userTexts = some (users.filterMap userTexts) := by
  induction users with
  | nil => rfl
  | cons user users ih =>
    rw [List.forall_mem_cons] at haccepted hshells
    obtain ⟨texts, htexts, -⟩ := userTexts_eq_some haccepted.1 hshells.1
    rw [List.mapM_cons, htexts, List.filterMap_cons_some htexts, ih haccepted.2 hshells.2]
    rfl

theorem map_name_userTexts :
    (users.filterMap userTexts).map (fun texts => some texts.name) =
      users.map FacetConfigUser.name := by
  induction users with
  | nil => rfl
  | cons user users ih =>
    rw [List.forall_mem_cons] at haccepted hshells
    obtain ⟨texts, htexts, hname, -⟩ := userTexts_eq_some haccepted.1 hshells.1
    rw [List.filterMap_cons_some htexts, List.map_cons, List.map_cons, hname,
      ih haccepted.2 hshells.2]

theorem cleanTexts_userTexts : CleanTexts (users.filterMap userTexts) := by
  constructor <;> intro texts htexts <;>
    obtain ⟨user, huser, hname, hhome, hshell, hhash⟩ :=
      exists_of_mem_userTexts haccepted hshells htexts
  all_goals have hclean := (haccepted user huser).clean
  exacts [hclean.name _ hname, hclean.homePath _ hhome, hclean.posixShell _ hshell,
    hclean.passwordHash _ hhash]

/-- Rendering gives the two files exactly when the printer has room. -/
theorem renderVirtualCredentials_eq_some_iff (hne : users ≠ []) {files : List UInt8 × List UInt8} :
    renderVirtualCredentials users = some files ↔
      unreserved (users.filterMap userTexts) ≤ 40 * (users.filterMap userTexts).length ∧
      files = (passwdFile (users.filterMap userTexts), shadowFile (users.filterMap userTexts)) := by
  have hpasswd : ([] : List UInt8).length < passwdSize (users.filterMap userTexts) := by
    simp [passwdSize]
  have hshadow : ([] : List UInt8).length < shadowSize (users.filterMap userTexts) := by
    simp [shadowSize]
  rw [renderVirtualCredentials, if_neg hne, mapM_userTexts haccepted hshells]
  refine (printUsers_eq_some_iff hpasswd hshadow).trans ?_
  rw [List.nil_append, List.nil_append, length_passwdFile, length_shadowFile,
    passwdLength_lt_iff, and_iff_left (shadowLength_lt _)]

end

/-- The account files give back every configured user and nobody else. -/
structure AccountsRead (users : List FacetConfigUser) (passwd shadow : List UInt8) : Prop where
  passwdEntries : ∀ user ∈ users, ∀ name, user.name = some name →
    ∃ entry, getpwnam passwd name = .ok entry ∧ user.name = some entry.name ∧
      user.uid = some entry.uid ∧ user.gid = some entry.gid ∧ user.homePath = some entry.dir ∧
      user.posixShell = some entry.shell
  shadowEntries : ∀ user ∈ users, ∀ name, user.name = some name →
    ∃ entry, getspnam shadow name = .ok entry ∧ user.name = some entry.namp ∧
      user.passwordHash = some entry.pwdp
  unknown : ∀ name, 0 ∉ name → (∀ user ∈ users, user.name ≠ some name) →
    getpwnam passwd name = .error .notFound ∧ getspnam shadow name = .error .notFound

def AccountsAgree (users : List FacetConfigUser) : Prop :=
  ∃ passwd shadow, renderVirtualCredentials users = some (passwd, shadow) ∧
    AccountsRead users passwd shadow

section

variable {data : List UInt8} {config : FacetSystemConfig}
variable (hparse : facetConfigParse data = .ok config)
variable (hshells : ∀ user ∈ config.users, user.posixShell ≠ none)

include hparse hshells

theorem nodup_userTexts_names :
    ((config.users.filterMap userTexts).map UserTexts.name).Nodup := by
  obtain ⟨parser, after, -, hvalid⟩ := facetConfigParse_ok hparse
  have hnames := (validateRequired_ok hvalid).2.userNames
  rw [← map_name_userTexts (accepted_users hparse).2 hshells] at hnames
  exact List.Nodup.of_map some (by rwa [List.map_map])

theorem fit_of_agree (hagree : AccountsAgree config.users) :
    AccountsFit (config.users.filterMap userTexts) := by
  obtain ⟨hne, haccepted⟩ := accepted_users hparse
  obtain ⟨passwd, shadow, hrender, hread⟩ := hagree
  obtain ⟨hprinted, hfiles⟩ :=
    (renderVirtualCredentials_eq_some_iff haccepted hshells hne).mp hrender
  obtain ⟨rfl, rfl⟩ := Prod.mk.inj hfiles
  have hclean := cleanTexts_userTexts haccepted hshells
  have hfound : TextsFound (config.users.filterMap userTexts)
      (passwdFile (config.users.filterMap userTexts))
      (shadowFile (config.users.filterMap userTexts)) := by
    constructor
    · intro texts htexts
      obtain ⟨user, huser, hname, hhome, hshell, -⟩ :=
        exists_of_mem_userTexts haccepted hshells htexts
      obtain ⟨entry, hget, hentryName, -, -, hdir, hentryShell⟩ :=
        hread.passwdEntries user huser texts.name hname
      exact ⟨entry, hget, Option.some.inj (hentryName.symm.trans hname),
        Option.some.inj (hdir.symm.trans hhome), Option.some.inj (hentryShell.symm.trans hshell)⟩
    · intro texts htexts
      obtain ⟨user, huser, hname, -, -, hhash⟩ :=
        exists_of_mem_userTexts haccepted hshells htexts
      obtain ⟨entry, hget, -, hpwdp⟩ := hread.shadowEntries user huser texts.name hname
      exact ⟨entry, hget, Option.some.inj (hpwdp.symm.trans hhash)⟩
  obtain ⟨hpasswd, hshadow⟩ := lengths_le_of_found hclean hfound
  exact ⟨plainTexts_of_found hclean hfound, hprinted, hpasswd, hshadow⟩

theorem agree_of_fit (hfit : AccountsFit (config.users.filterMap userTexts)) :
    AccountsAgree config.users := by
  obtain ⟨hne, haccepted⟩ := accepted_users hparse
  have hclean := cleanTexts_userTexts haccepted hshells
  have hnames := nodup_userTexts_names hparse hshells
  refine ⟨_, _, (renderVirtualCredentials_eq_some_iff haccepted hshells hne).mpr
    ⟨hfit.printed, rfl⟩, ?_, ?_, ?_⟩
  · intro user huser name hgivenName
    obtain ⟨texts, hsome, hname, hhome, hshell, -, huid, hgid⟩ :=
      userTexts_eq_some (haccepted user huser) (hshells user huser)
    obtain rfl := Option.some.inj (hgivenName.symm.trans hname)
    exact ⟨_, getpwnam_of_fit hclean hnames hfit (List.mem_filterMap.mpr ⟨user, huser, hsome⟩),
      hname, huid, hgid, hhome, hshell⟩
  · intro user huser name hgivenName
    obtain ⟨texts, hsome, hname, -, -, hhash, -⟩ :=
      userTexts_eq_some (haccepted user huser) (hshells user huser)
    obtain rfl := Option.some.inj (hgivenName.symm.trans hname)
    exact ⟨_, getspnam_of_fit hclean hnames hfit (List.mem_filterMap.mpr ⟨user, huser, hsome⟩),
      hname, hhash⟩
  · intro name _ hunknown
    apply not_found_of_fit hclean hfit
    intro texts htexts heq
    obtain ⟨user, huser, hname, -⟩ := exists_of_mem_userTexts haccepted hshells htexts
    exact hunknown user huser (hname.trans (congrArg some heq))

/-- The account files agree with an accepted configuration whose users all have a
POSIX shell exactly when the users' texts fit the printer and the readers. -/
theorem accounts_agree_iff :
    AccountsAgree config.users ↔ AccountsFit (config.users.filterMap userTexts) :=
  ⟨fit_of_agree hparse hshells, agree_of_fit hparse hshells⟩

end

/-- The users that an accepted text gives pass a check. -/
theorem users_checked (data : List UInt8) (check : List FacetConfigUser → Bool)
    (hchecked : (facetConfigParse data).toOption.any (fun config =>
      config.users.all (fun user => user.posixShell.isSome) && check config.users) = true) :
    ∃ config, facetConfigParse data = .ok config ∧
      (∀ user ∈ config.users, user.posixShell ≠ none) ∧ check config.users = true := by
  cases hparse : facetConfigParse data <;> rw [hparse] at hchecked
  case error => contradiction
  case ok config =>
    obtain ⟨hall, hcheck⟩ := Bool.and_eq_true_iff.mp hchecked
    exact ⟨config, rfl, fun user huser =>
      Option.isSome_iff_ne_none.mp (List.all_eq_true.mp hall user huser), hcheck⟩

theorem accounts_agree_fallback :
    ∃ config, facetConfigParse fallback = .ok config ∧ AccountsAgree config.users := by
  obtain ⟨config, hparse, hshells, hfit⟩ := users_checked fallback
    (fun users => AccountsFit (users.filterMap userTexts)) (by decide +kernel)
  exact ⟨config, hparse, (accounts_agree_iff hparse hshells).mpr (of_decide_eq_true hfit)⟩

/-- A configuration whose only user has a colon in its home. -/
def colonHome : List UInt8 :=
  utf8Text "[facet]\nversion = 1\nseat_initrd = \"seat.initrd\"\n"
    ++ utf8Text "[[logging_sinks]]\nname = \"log\"\ntype = \"log\"\nrequired = true\n"
    ++ utf8Text "[[authentication_sources]]\nname = \"local\"\nprovider_domain = 0\n"
    ++ utf8Text "type = \"local\"\nrequired = true\n"
    ++ utf8Text "[[users]]\nname = \"root\"\nadmin = true\nuid = 0\ngid = 0\n"
    ++ utf8Text "password_hash = \"$5$facet$j7FgoXidvJl10CTaW0nguGP3ZnvKnqS3/IHmDVliPQ9\"\n"
    ++ utf8Text "home_path = \"/ro:ot\"\nposix_shell = \"/bin/sh\"\n"
    ++ utf8Text "[[seats]]\nname = \"seat\"\ntype = \"serial\"\nserver = \"/seat\"\n"
    ++ utf8Text "terminals = [\"tty\"]\n"
    ++ utf8Text "[[domains]]\nid = 0\nname = \"system\"\npersonality = \"native\"\n"
    ++ utf8Text "domain_manager = \"local\"\ninitrd = \"system.initrd\"\n"
    ++ utf8Text "authentication_source = \"local\"\n"
    ++ utf8Text "logging_sinks = [\x7b name = \"log\", level = \"info\" \x7d]\n"
    ++ utf8Text "terminals = [\x7b terminal = \"seat.tty\", view = \"native\", "
    ++ utf8Text "initial_process = \"/login\" \x7d]\n"

theorem accounts_disagree : ∃ config, facetConfigParse colonHome = .ok config ∧
    (∀ user ∈ config.users, user.posixShell ≠ none) ∧ ¬AccountsAgree config.users := by
  obtain ⟨config, hparse, hshells, hfit⟩ := users_checked colonHome
    (fun users => ¬AccountsFit (users.filterMap userTexts)) (by decide +kernel)
  exact ⟨config, hparse, hshells,
    fun hagree => of_decide_eq_true hfit (fit_of_agree hparse hshells hagree)⟩

/-! ## Rendering -/

/-- The texts that both passes over the users take the length of and print. -/
def TextsPresent (users : List FacetConfigUser) : Prop :=
  ∀ user ∈ users, user.name ≠ none ∧ user.homePath ≠ none ∧ user.posixShell ≠ none ∧
    user.passwordHash ≠ none

/-- A store for the users of an accepted configuration is created, and no absent text
is read, exactly when every user has a shell and the names and numbers of the users
stay within the bytes reserved for them. -/
theorem credential_store_created_iff {data : List UInt8} {config : FacetSystemConfig}
    (hparse : facetConfigParse data = .ok config) (initrd : Initrd.FacetInitrd)
    (credentials : Credentials) :
    TextsPresent config.users ∧
        credentialFileStoreCreate initrd credentials config.users ≠ none ↔
      (∀ user ∈ config.users, user.posixShell ≠ none) ∧
        unreserved (config.users.filterMap userTexts) ≤
          40 * (config.users.filterMap userTexts).length := by
  obtain ⟨hne, haccepted⟩ := accepted_users hparse
  have hpresent : TextsPresent config.users ↔ ∀ user ∈ config.users, user.posixShell ≠ none := by
    refine forall₂_congr fun user huser => ?_
    obtain ⟨name, hname, -⟩ := (haccepted user huser).name
    simp [hname, (haccepted user huser).homePath, (haccepted user huser).passwordHash]
  rw [hpresent]
  refine and_congr_right fun hshells => ?_
  have hrender := @renderVirtualCredentials_eq_some_iff _ haccepted hshells hne
  rw [credentialFileStoreCreate, Ne, Option.map_eq_none_iff, ← Ne, Option.ne_none_iff_exists']
  simp [hrender]

theorem credential_store_created_colonHome : ∃ config, facetConfigParse colonHome = .ok config ∧
    credentialFileStoreCreate Initrd.FacetInitrd.rootOnly ⟨0, 0, true⟩ config.users ≠ none := by
  obtain ⟨config, hparse, hshells, hreserved⟩ := users_checked colonHome
    (fun users => unreserved (users.filterMap userTexts) ≤
      40 * (users.filterMap userTexts).length) (by decide +kernel)
  exact ⟨config, hparse, ((credential_store_created_iff hparse _ _).mpr
    ⟨hshells, of_decide_eq_true hreserved⟩).2⟩

/-- A configuration without shells is accepted, and the length of one is taken. -/
theorem shell_absent : ∃ config, facetConfigParse twoDomains = .ok config ∧
    ¬TextsPresent config.users :=
  ⟨_, twoDomains_accepted, fun hpresent => (hpresent _ (.tail _ (.head _))).2.2.1 rfl⟩

end FacetOS.Posix
