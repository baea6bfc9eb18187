import FacetOS.Core.Checked
import FacetOS.FileView.Search

/-!
# Path resolution in its buffer

`resolve_path` works on a buffer of `FACET_PATH_MAX + 1` bytes, which it extends and
cuts back while it scans the caller's path.  Here the loops run on that buffer with
every load and store checked.  They never fault, and what they leave is what the
list model `resolvePath` computes, so the results on component stacks hold for the
buffer.
-/

namespace FacetOS.Initrd

open Paths Checked
open Passes (ite_error_eq_ok map_eq_ok)
open Rpc (FacetError)
open FileView (CanonicalPath canonicalPath_of_resolvePath)

/-! ## The loops -/

/-- `output` and `output_length`. -/
structure ResolveBuffer where
  output : List UInt8
  length : ℕ

variable (path : List UInt8)

/-- `while (offset < path->length && test(path->data[offset])) offset++`, with the
number of bytes that are left. -/
def scanPath (test : UInt8 → Bool) : ℕ → ℕ → Except Fault ℕ
  | 0, offset => .ok offset
  | remaining + 1, offset => do
      let byte ← load path offset
      if test byte then scanPath test remaining (offset + 1) else .ok offset

/-- `while (output_length > 1 && output[output_length - 1] != '/') output_length--`. -/
def retreatLoop (output : List UInt8) : ℕ → Except Fault ℕ
  | 0 => .ok 0
  | length + 1 =>
    if length + 1 > 1 then do
      let byte ← load output length
      if byte ≠ slash then retreatLoop output length else .ok (length + 1)
    else .ok (length + 1)

/-- The comparison of a component with `.`. -/
def isCurrent (component length : ℕ) : Except Fault Bool :=
  if length = 1 then (load path component).map (fun byte => byte == dot) else .ok false

/-- The comparison of a component with `..`. -/
def isParent (component length : ℕ) : Except Fault Bool :=
  if length = 2 then do
    let first ← load path component
    if first = dot then (load path (component + 1)).map (fun byte => byte == dot)
    else .ok false
  else .ok false

/-- The separator in front of a component. -/
def appendSeparator (buffer : ResolveBuffer) (separator : ℕ) : Except Fault ResolveBuffer :=
  if separator ≠ 0 then
    (store buffer.output buffer.length slash).map
      (fun output => ⟨output, buffer.length + 1⟩)
  else .ok buffer

/-- One round of the loop, after the component has been delimited. -/
def resolveRound (buffer : ResolveBuffer) (component length : ℕ) :
    Except Fault (Except FacetError ResolveBuffer) := do
  if length = 0 then .ok (.ok buffer)
  else if ← isCurrent path component length then .ok (.ok buffer)
  else if ← isParent path component length then
    if buffer.length > 1 then do
      let kept ← retreatLoop buffer.output buffer.length
      .ok (.ok { buffer with length := if kept > 1 then kept - 1 else kept })
    else .ok (.ok buffer)
  else
    let separator := if buffer.length = 1 then 0 else 1
    if buffer.length + separator > facetPathMax ∨
        length > facetPathMax - (buffer.length + separator) then
      .ok (.error .invalidArgument)
    else
      let buffer ← appendSeparator buffer separator
      let bytes ← loadBlock path component length
      let output ← storeBlock buffer.output buffer.length bytes
      .ok (.ok ⟨output, buffer.length + length⟩)

/-- The loop over the components; every round reads at least one byte. -/
def resolveLoop : ℕ → ℕ → ResolveBuffer → Except Fault (Except FacetError ResolveBuffer)
  | 0, _, _ => .error .exhausted
  | fuel + 1, offset, buffer =>
    if offset < path.length then do
      let component ← scanPath path (fun byte => byte = slash) (path.length - offset) offset
      let stop ←
        scanPath path (fun byte => byte ≠ slash) (path.length - component) component
      match ← resolveRound path buffer component (stop - component) with
      | .error failure => .ok (.error failure)
      | .ok buffer => resolveLoop fuel stop buffer
    else .ok (.ok buffer)

/-- `resolve_path` on a new buffer, whose bytes are arbitrary.  The result is the
string that ends at the stored terminator. -/
def resolveInPlace (fresh base path : List UInt8) :
    Except Fault (Except FacetError (List UInt8 × Bool)) :=
  if base.head? ≠ some slash ∨ path = [] ∨ facetPathMax < path.length ∨ 0 ∈ path then
    .ok (.error .invalidArgument)
  else if path.head? ≠ some slash ∧ facetPathMax < base.length then
    .ok (.error .invalidArgument)
  else do
    let start := if path.head? = some slash then [slash] else base
    let output ← storeBlock fresh 0 start
    match ← resolveLoop path (path.length + 1) 0 ⟨output, start.length⟩ with
    | .error failure => .ok (.error failure)
    | .ok buffer =>
      let output ← store buffer.output buffer.length 0
      .ok (.ok (output.take buffer.length, pathRequiresDirectory path))

/-! ## The loops do what the list model does -/

theorem scanPath_eq_ok {path : List UInt8} {test : UInt8 → Bool} {remaining offset : ℕ}
    (hremaining : offset + remaining = path.length) :
    scanPath path test remaining offset =
      .ok (offset + ((path.drop offset).takeWhile test).length) := by
  induction remaining generalizing offset with
  | zero =>
    rw [scanPath, List.drop_eq_nil_of_le (by omega)]
    rfl
  | succ remaining ih =>
    have hlt : offset < path.length := by omega
    rw [scanPath, load_eq_ok (List.getElem?_eq_getElem hlt), ok_bind,
      List.drop_eq_getElem_cons hlt]
    by_cases htest : test path[offset] = true
    · rw [if_pos htest, ih (by omega), List.takeWhile_cons_of_pos htest, List.length_cons]
      congr 1
      omega
    · rw [if_neg htest, List.takeWhile_cons_of_neg htest]
      rfl

/-- The bytes between two positions. -/
def slice (start length : ℕ) : List UInt8 :=
  (path.drop start).take length

/-- A scan stops behind the bytes that pass its test. -/
theorem scanPath_delimits {path : List UInt8} (test : UInt8 → Bool) {offset : ℕ}
    (hoffset : offset ≤ path.length) :
    ∃ stop, scanPath path test (path.length - offset) offset = .ok stop ∧ offset ≤ stop ∧
      stop ≤ path.length ∧ slice path offset (stop - offset) = (path.drop offset).takeWhile test ∧
      path.drop stop = (path.drop offset).dropWhile test := by
  have hsplit := @List.takeWhile_append_dropWhile _ test (path.drop offset)
  have hlength := (List.takeWhile_prefix test (l := path.drop offset)).length_le
  rw [List.length_drop] at hlength
  refine ⟨_, scanPath_eq_ok (by omega), Nat.le_add_right _ _, by omega, ?_, ?_⟩
  · rw [slice, Nat.add_sub_cancel_left]
    exact (List.prefix_iff_eq_take.mp (List.takeWhile_prefix test)).symm
  · rw [← List.drop_drop]
    calc (path.drop offset).drop ((path.drop offset).takeWhile test).length
        = ((path.drop offset).takeWhile test ++ (path.drop offset).dropWhile test).drop
            ((path.drop offset).takeWhile test).length := by rw [hsplit]
      _ = (path.drop offset).dropWhile test := List.drop_left

theorem retreatLoop_eq_ok {output : List UInt8} {length : ℕ} (hpositive : 0 < length)
    (hbounds : length ≤ output.length) :
    retreatLoop output length = .ok (output.take 1 ++
      ((output.take length).drop 1).rdropWhile (fun byte => byte ≠ slash)).length := by
  induction length with
  | zero => cases hpositive
  | succ length ih =>
    have hlt : length < output.length := by omega
    rw [retreatLoop]
    by_cases hone : length + 1 > 1
    · have hlast : (output.take (length + 1)).drop 1 =
          (output.take length).drop 1 ++ [output[length]] := by
        rw [List.take_succ_eq_append_getElem hlt, List.drop_append_of_le_length]
        rw [List.length_take]
        omega
      rw [if_pos hone, load_eq_ok (List.getElem?_eq_getElem hlt), ok_bind, hlast]
      by_cases hslash : output[length] ≠ slash
      · rw [if_pos hslash, List.rdropWhile_concat_pos _ _ _ (by simpa using hslash)]
        exact ih (by omega) (by omega)
      · rw [if_neg hslash, List.rdropWhile_concat_neg _ _ _ (by simpa using hslash), ← hlast]
        simp only [List.length_append, List.length_take, List.length_drop]
        congr 1
        omega
    · obtain rfl : length = 0 := by omega
      rw [if_neg hone]
      simp only [Nat.zero_add, List.drop_take_self, List.rdropWhile_nil, List.append_nil,
        List.length_take]
      congr 1
      omega

/-- A buffer of this capacity holds the output of a list model. -/
structure Fills (capacity : ℕ) (buffer : ResolveBuffer) (output : List UInt8) : Prop where
  size : buffer.output.length = capacity
  contents : buffer.output.take buffer.length = output
  length : buffer.length = output.length

/-- The buffer holds the output of the list model, which fits and begins with the root. -/
structure Represents (buffer : ResolveBuffer) (output : List UInt8) : Prop
    extends Fills (facetPathMax + 1) buffer output where
  nonempty : 0 < output.length
  fits : output.length ≤ facetPathMax

/-- The two levels fail alike, or end with the same output. -/
def Agrees (result : Except Fault (Except FacetError ResolveBuffer))
    (expected : Except FacetError (List UInt8)) : Prop :=
  match expected with
  | .error failure => result = .ok (.error failure)
  | .ok output => ∃ buffer, result = .ok (.ok buffer) ∧ Represents buffer output

section Rounds

variable {path output : List UInt8} {buffer : ResolveBuffer} {component length : ℕ}

section

variable (hbounds : component + length ≤ path.length)
include hbounds

theorem length_slice :
    (slice path component length).length = length := by
  rw [slice, List.length_take, List.length_drop]
  omega

/-- A component of another length is not the literal. -/
theorem decide_slice_eq_false (literal : List UInt8)
    (hlength : length ≠ literal.length) : decide (slice path component length = literal) = false :=
  decide_eq_false fun hsame => hlength ((length_slice hbounds).symm.trans (congrArg _ hsame))

theorem isCurrent_eq_ok :
    isCurrent path component length = .ok (decide (slice path component length = [dot])) := by
  rw [isCurrent]
  by_cases hlength : length = 1
  · subst hlength
    have hlt : component < path.length := by omega
    rw [if_pos rfl, load_eq_ok (List.getElem?_eq_getElem hlt), slice,
      List.drop_eq_getElem_cons hlt, List.take_succ_cons, List.take_zero]
    simp [Except.map, beq_eq_decide]
  · rw [if_neg hlength, decide_slice_eq_false hbounds [dot] hlength]

theorem isParent_eq_ok :
    isParent path component length =
      .ok (decide (slice path component length = [dot, dot])) := by
  rw [isParent]
  by_cases hlength : length = 2
  · subst hlength
    have hfirst : component < path.length := by omega
    have hsecond : component + 1 < path.length := by omega
    rw [if_pos rfl, load_eq_ok (List.getElem?_eq_getElem hfirst), ok_bind, slice,
      load_eq_ok (List.getElem?_eq_getElem hsecond), List.drop_eq_getElem_cons hfirst,
      List.drop_eq_getElem_cons hsecond, List.take_succ_cons, List.take_succ_cons, List.take_zero]
    by_cases hdot : path[component] = dot
    · simp [hdot, Except.map, beq_eq_decide]
    · simp [hdot]
  · rw [if_neg hlength, decide_slice_eq_false hbounds [dot, dot] hlength]

end

section Fills

variable {capacity : ℕ} (hbuffer : Fills capacity buffer output)
include hbuffer

/-- What is left of the output begins like the buffer. -/
theorem Fills.shorten {kept : List UInt8} (hkept : kept <+: output) :
    Fills capacity { buffer with length := kept.length } kept where
  size := hbuffer.size
  contents := take_length_of_prefix hbuffer.contents hkept
  length := rfl

theorem Fills.separator (root : ℕ)
    (hroom : output.length + (if output.length = root then 0 else 1) < capacity) :
    ∃ next, appendSeparator buffer (if output.length = root then 0 else 1) = .ok next ∧
      next.output.length = capacity ∧
      next.output.take next.length =
        (if output.length = root then output else output ++ [slash]) ∧
      next.length = output.length + if output.length = root then 0 else 1 := by
  by_cases hroot : output.length = root
  · simp only [if_pos hroot]
    exact ⟨buffer, rfl, hbuffer.size, hbuffer.contents, hbuffer.length⟩
  rw [if_neg hroot] at hroom
  have hlt : buffer.length < buffer.output.length := by
    rw [hbuffer.size, hbuffer.length]
    omega
  simp only [if_neg hroot]
  refine ⟨⟨buffer.output.set buffer.length slash, buffer.length + 1⟩, ?_, ?_, ?_, ?_⟩
  · rw [appendSeparator, if_pos one_ne_zero, store_eq_ok hlt]
    rfl
  · rw [List.length_set, hbuffer.size]
  · rw [take_set_self hlt, hbuffer.contents]
  · rw [hbuffer.length]

/-- A name is copied behind the output. -/
theorem Fills.advance (root : ℕ) (hbounds : component + length ≤ path.length)
    (hroom : output.length + (if output.length = root then 0 else 1) + length < capacity) :
    ∃ next written, appendSeparator buffer (if output.length = root then 0 else 1) = .ok next ∧
      loadBlock path component length = .ok (slice path component length) ∧
      storeBlock next.output next.length (slice path component length) = .ok written ∧
      Fills capacity ⟨written, next.length + length⟩
        (advance slash root output (slice path component length)) := by
  obtain ⟨next, hnext, hsize, hcontents, hlength⟩ := hbuffer.separator root (by omega)
  obtain ⟨written, hstore, hwritten, htake⟩ :=
    @storeBlock_eq_ok _ next.output (slice path component length) next.length
      (by rw [length_slice hbounds, hsize, hlength]; omega)
  rw [length_slice hbounds, hcontents] at htake
  refine ⟨next, written, hnext, loadBlock_eq_ok hbounds, hstore, hwritten.trans hsize, htake, ?_⟩
  rw [length_advance, length_slice hbounds, hlength]

end Fills

theorem Represents.shorten (hbuffer : Represents buffer output) {kept : List UInt8}
    (hkept : kept <+: output) (hnonempty : 0 < kept.length) :
    Represents { buffer with length := kept.length } kept :=
  ⟨hbuffer.toFills.shorten hkept, hnonempty, hkept.length_le.trans hbuffer.fits⟩

/-- The part of a buffer that the retreating loop keeps. -/
theorem retreat_eq (output : List UInt8) :
    ∃ kept, kept = output.take 1 ++ (output.drop 1).rdropWhile (fun byte => byte ≠ slash) ∧
      kept <+: output ∧
      retreat slash 1 output = if 1 < kept.length then kept.dropLast else kept := by
  refine ⟨_, rfl, ?_, rfl⟩
  have hprefix := (List.prefix_append_right_inj (output.take 1)).mpr
    (List.rdropWhile_prefix (fun byte => byte ≠ slash) (output.drop 1))
  rwa [List.take_append_drop] at hprefix

/-- Going to the parent shortens the output in place. -/
theorem parentRound_agrees (hbuffer : Represents buffer output) (hlong : 1 < buffer.length) :
    Agrees (do
        let kept ← retreatLoop buffer.output buffer.length
        .ok (.ok { buffer with length := if kept > 1 then kept - 1 else kept }))
      (.ok (retreat slash 1 output)) := by
  have hfits := hbuffer.fits
  have hkept := retreatLoop_eq_ok (show 0 < buffer.length by omega)
    (show buffer.length ≤ buffer.output.length by rw [hbuffer.size, hbuffer.length]; omega)
  have htake : buffer.output.take 1 = output.take 1 := by
    rw [← hbuffer.contents, List.take_take, min_eq_left (by omega)]
  obtain ⟨kept, hdef, hbegin, hretreat⟩ := retreat_eq output
  rw [hkept, ok_bind, hbuffer.contents, htake, ← hdef, hretreat]
  have hpositive : 0 < kept.length := by
    have hone : (output.take 1).length = 1 := by
      rw [List.length_take]
      have := hbuffer.nonempty
      omega
    rw [hdef, List.length_append]
    omega
  by_cases hone : 1 < kept.length
  · simp only [hone, if_true]
    have hlast := hbuffer.shorten ((List.dropLast_prefix kept).trans hbegin)
      (by rw [List.length_dropLast]; omega)
    rw [List.length_dropLast] at hlast
    exact ⟨_, rfl, hlast⟩
  · simp only [hone, if_false]
    exact ⟨_, rfl, hbuffer.shorten hbegin hpositive⟩

/-- A name is copied behind the output. -/
theorem nameRound_agrees (hbuffer : Represents buffer output)
    (hbounds : component + length ≤ path.length)
    (hfits : output.length + separatorLength output + length ≤ facetPathMax) :
    Agrees (do
        let buffer ← appendSeparator buffer (separatorLength output)
        let bytes ← loadBlock path component length
        let output ← storeBlock buffer.output buffer.length bytes
        .ok (.ok ⟨output, buffer.length + length⟩))
      (.ok (advance slash 1 output (slice path component length))) := by
  rw [separatorLength] at hfits ⊢
  obtain ⟨next, written, hnext, hbytes, hstore, hfills⟩ :=
    hbuffer.toFills.advance 1 hbounds (by omega)
  rw [hnext, ok_bind, hbytes, ok_bind, hstore, ok_bind]
  have hlength := length_advance slash 1 output (slice path component length)
  rw [length_slice hbounds] at hlength
  have hnonempty := hbuffer.nonempty
  exact ⟨_, rfl, hfills, by omega, by omega⟩

/-- One round takes the step of the list model. -/
theorem resolveRound_agrees (hbuffer : Represents buffer output)
    (hbounds : component + length ≤ path.length) (hlength : length ≠ 0) :
    Agrees (resolveRound path buffer component length)
      (resolveStep output (slice path component length)) := by
  rw [resolveRound, if_neg hlength, isCurrent_eq_ok hbounds, ok_bind, resolveStep]
  by_cases hcurrent : slice path component length = [dot]
  · rw [if_pos (by simpa using hcurrent), if_pos hcurrent]
    exact ⟨buffer, rfl, hbuffer⟩
  rw [if_neg (by simpa using hcurrent), if_neg hcurrent, isParent_eq_ok hbounds, ok_bind]
  by_cases hparent : slice path component length = [dot, dot]
  · rw [if_pos (by simpa using hparent), if_pos hparent]
    by_cases hlong : buffer.length > 1
    · rw [if_pos hlong]
      exact parentRound_agrees hbuffer hlong
    have hroot : retreat slash 1 output = output := by
      have hone : output.length = 1 := by
        have := hbuffer.nonempty
        have := hbuffer.length
        omega
      obtain ⟨byte, rfl⟩ := List.length_eq_one_iff.mp hone
      rfl
    rw [if_neg hlong, hroot]
    exact ⟨buffer, rfl, hbuffer⟩
  · have hseparator : (if buffer.length = 1 then 0 else 1) = separatorLength output := by
      rw [hbuffer.length, separatorLength]
    rw [if_neg (by simpa using hparent), if_neg hparent, hseparator, length_slice hbounds]
    by_cases hover : facetPathMax < output.length + separatorLength output ∨
        facetPathMax - (output.length + separatorLength output) < length
    · rw [if_pos hover, if_pos (by rwa [hbuffer.length])]
      rfl
    · rw [if_neg hover, if_neg (by rwa [hbuffer.length])]
      exact nameRound_agrees hbuffer hbounds (by omega)

/-- The two scans together read at least one byte. -/
theorem scans_progress {offset stop : ℕ} (hleft : offset < path.length)
    (hskip : path.drop component = (path.drop offset).dropWhile (fun byte => byte = slash))
    (hscan : path.drop stop = (path.drop component).dropWhile (fun byte => byte ≠ slash))
    (hlower : offset ≤ component) (hupper : component ≤ stop) : offset < stop := by
  by_contra hstuck
  obtain rfl : component = offset := by omega
  obtain rfl : stop = component := by omega
  have hslash := List.head?_dropWhile_not (fun byte => decide (byte = slash)) (path.drop stop)
  have hother := List.head?_dropWhile_not (fun byte => decide (byte ≠ slash)) (path.drop stop)
  rw [← hskip, List.drop_eq_getElem_cons hleft] at hslash
  rw [← hscan, List.drop_eq_getElem_cons hleft] at hother
  simp only [List.head?_cons, decide_eq_false_iff_not, ne_eq, not_not] at hslash hother
  exact hslash hother

/-- The two scans delimit the next component, if there is one. -/
theorem scanPath_component {offset : ℕ} (hleft : offset < path.length) :
    ∃ component stop,
      scanPath path (fun byte => byte = slash) (path.length - offset) offset = .ok component ∧
      scanPath path (fun byte => byte ≠ slash) (path.length - component) component = .ok stop ∧
      offset < stop ∧ component ≤ stop ∧ stop ≤ path.length ∧
      components slash (path.drop offset) =
        (if stop - component = 0 then [] else [slice path component (stop - component)]) ++
          components slash (path.drop stop) := by
  obtain ⟨component, hskip, hlower, hupper, -, hbehind⟩ :=
    scanPath_delimits (fun byte => byte = slash) hleft.le
  obtain ⟨stop, hscan, hstart, hend, hslice, hrest⟩ :=
    scanPath_delimits (fun byte => byte ≠ slash) hupper
  have hprogress : offset < stop := scans_progress hleft hbehind hrest hlower hstart
  refine ⟨component, stop, hskip, hscan, hprogress, hstart, hend, ?_⟩
  rw [← components_dropWhile slash (path.drop offset), ← hbehind]
  split_ifs with hempty
  · rw [show component = stop by omega, List.nil_append]
  · have hfound : (path.drop component).takeWhile (fun byte => byte ≠ slash) ≠ [] := by
      rw [← hslice]
      intro hnil
      have hlength : (slice path component (stop - component)).length = stop - component :=
        length_slice (by omega)
      exact hempty (hlength.symm.trans (congrArg List.length hnil))
    rw [components_takeWhile hfound, ← hrest, ← hslice, List.singleton_append]

/-- The loop resolves the components that are left. -/
theorem resolveLoop_agrees {fuel offset : ℕ} (hbuffer : Represents buffer output)
    (hoffset : offset ≤ path.length) (hfuel : path.length < offset + fuel) :
    Agrees (resolveLoop path fuel offset buffer)
      ((components slash (path.drop offset)).foldlM resolveStep output) := by
  induction fuel generalizing offset buffer output with
  | zero => omega
  | succ fuel ih =>
    rw [resolveLoop]
    by_cases hleft : offset < path.length
    · obtain ⟨component, stop, hskip, hscan, hprogress, hstart, hend, hcomponents⟩ :=
        scanPath_component hleft
      rw [if_pos hleft, hskip, ok_bind, hscan, ok_bind, hcomponents]
      by_cases hempty : stop - component = 0
      · rw [hempty, resolveRound, if_pos rfl, ok_bind, if_pos rfl]
        exact ih hbuffer hend (by omega)
      have hbounds : component + (stop - component) ≤ path.length := by omega
      have hround := resolveRound_agrees hbuffer hbounds hempty
      rw [if_neg hempty, List.singleton_append, List.foldlM_cons]
      generalize resolveStep output (slice path component (stop - component)) = expected at hround ⊢
      cases expected with
      | error failure =>
        rw [show resolveRound path buffer component (stop - component) = _ from hround]
        rfl
      | ok next =>
        obtain ⟨result, hresult, hnext⟩ := hround
        rw [hresult]
        exact ih hnext hend (by omega)
    · rw [if_neg hleft, List.drop_eq_nil_of_le (by omega), components_nil]
      exact ⟨buffer, rfl, hbuffer⟩

end Rounds

/-- The buffer of `FACET_PATH_MAX + 1` bytes is never left, and the result is the one
of the list model. -/
theorem resolveInPlace_eq_ok {fresh : List UInt8} (hfresh : fresh.length = facetPathMax + 1)
    (base path : List UInt8) :
    resolveInPlace fresh base path = .ok (resolvePath base path) := by
  rw [resolveInPlace, resolvePath]
  rw [apply_ite Except.ok, apply_ite Except.ok]
  refine if_ctx_congr Iff.rfl (fun _ => rfl) fun hinvalid => ?_
  refine if_ctx_congr Iff.rfl (fun _ => rfl) fun hlong => ?_
  dsimp only
  obtain ⟨start, hstart⟩ :
    ∃ start, start = if path.head? = some slash then [slash] else base := ⟨_, rfl⟩
  have hbounds : 0 < start.length ∧ start.length ≤ facetPathMax := by
    rw [hstart]
    split
    · decide
    rename_i hrelative
    have hbase : base ≠ [] := by
      rintro rfl
      exact hinvalid (.inl (by simp))
    exact ⟨List.length_pos_iff.mpr hbase, by
      by_contra hexceeds
      exact hlong ⟨hrelative, by omega⟩⟩
  obtain ⟨output, hstore, hlength, htake⟩ :=
    @storeBlock_eq_ok _ fresh start 0 (by rw [hfresh]; omega)
  have hbuffer : Represents ⟨output, start.length⟩ start :=
    { size := hlength.trans hfresh
      contents := by simpa using htake
      length := rfl
      nonempty := hbounds.1
      fits := hbounds.2 }
  have hloop := @resolveLoop_agrees path start _ (path.length + 1) 0 hbuffer (Nat.zero_le _)
    (by omega)
  rw [List.drop_zero] at hloop
  rw [← hstart, hstore, ok_bind]
  generalize (components slash path).foldlM resolveStep start = expected at hloop ⊢
  cases expected with
  | error failure =>
    rw [show resolveLoop path (path.length + 1) 0 ⟨output, start.length⟩ = _ from hloop]
    rfl
  | ok resolved =>
    obtain ⟨buffer, hresult, hlast⟩ := hloop
    have hterminator : buffer.length < buffer.output.length := by
      rw [hlast.size, hlast.length]
      exact Nat.lt_succ_of_le hlast.fits
    rw [hresult, ok_bind]
    dsimp only
    rw [store_eq_ok hterminator, ok_bind, List.take_set_of_le le_rfl, hlast.contents]
    rfl

/-! ## Resolution on component stacks -/

/-- The directory where the resolution of a path starts. -/
def startStack (base path : List UInt8) : List (List UInt8) :=
  if path.head? = some slash then [] else components slash base

/-- No result on the way is longer than a path may be. -/
def StepsFit (stack parts : List (List UInt8)) : Prop :=
  ∀ count ≤ parts.length,
    (absolutePath (walk dot stack (parts.take count))).length ≤ facetPathMax

variable {stack : List (List UInt8)}

theorem stepsFit_cons {parts : List (List UInt8)} {part : List UInt8} :
    StepsFit stack (part :: parts) ↔
      (absolutePath stack).length ≤ facetPathMax ∧ StepsFit (enter dot stack part) parts := by
  constructor
  · intro hfits
    refine ⟨hfits 0 (Nat.zero_le _), fun count hcount => ?_⟩
    exact hfits (count + 1) (Nat.succ_le_succ hcount)
  · rintro ⟨hstart, hrest⟩ count hcount
    cases count with
    | zero => exact hstart
    | succ count => exact hrest count (Nat.le_of_succ_le_succ hcount)

theorem foldlM_resolveStep_ok_iff {parts : List (List UInt8)} (hstack : NameStack stack)
    (hparts : ∀ part ∈ parts, Component slash part)
    (hfits : (absolutePath stack).length ≤ facetPathMax) :
    (∃ output, parts.foldlM resolveStep (absolutePath stack) = .ok output) ↔
      StepsFit stack parts := by
  induction parts generalizing stack with
  | nil =>
    refine ⟨fun _ count hcount => ?_, fun _ => ⟨_, rfl⟩⟩
    rw [Nat.le_zero.mp hcount]
    exact hfits
  | cons part parts ih =>
    rw [List.foldlM_cons, resolveStep_absolutePath hstack hfits, stepsFit_cons]
    by_cases hnext : (absolutePath (enter dot stack part)).length ≤ facetPathMax
    · rw [if_pos hnext]
      have hrest := ih (enter_names hstack (hparts part List.mem_cons_self))
        (fun other hother => hparts other (List.mem_cons_of_mem _ hother)) hnext
      exact hrest.trans ⟨fun hsteps => ⟨hfits, hsteps⟩, fun hsteps => hsteps.2⟩
    · rw [if_neg hnext]
      constructor
      · rintro ⟨output, hfailed⟩
        cases hfailed
      · rintro ⟨-, hsteps⟩
        exact absurd (hsteps 0 (Nat.zero_le _)) hnext

section Canonical

variable {base path : List UInt8}

theorem rtakeWhile_append_slash (left right : List UInt8) :
    (left ++ slash :: right).rtakeWhile (fun byte => byte ≠ slash) =
      right.rtakeWhile (fun byte => byte ≠ slash) := by
  simp only [List.rtakeWhile, List.reverse_append, List.reverse_cons, List.append_assoc,
    List.singleton_append]
  congr 1
  rw [List.takeWhile_append]
  split
  · rename_i hall
    rw [List.takeWhile_cons_of_neg (by simp), List.append_nil,
      (List.takeWhile_prefix _).eq_of_length hall]
  · rfl

theorem pathRequiresDirectory_append {right : List UInt8} (hright : right ≠ [])
    (left : List UInt8) :
    pathRequiresDirectory (left ++ slash :: right) = pathRequiresDirectory right := by
  have hlast : (left ++ slash :: right).getLast? = right.getLast? := by
    rw [List.getLast?_append, List.getLast?_cons]
    cases hend : right.getLast? with
    | none => exact absurd (List.getLast?_eq_none_iff.mp hend) hright
    | some byte => rfl
  rw [pathRequiresDirectory, pathRequiresDirectory, hlast, rtakeWhile_append_slash]

variable (hbase : CanonicalPath base)
include hbase

theorem startStack_names : NameStack (startStack base path) := by
  obtain ⟨stack, hstack, rfl⟩ := hbase.rendered
  rw [startStack, components_absolutePath hstack]
  split
  · simp [NameStack]
  · exact hstack

theorem absolutePath_startStack :
    absolutePath (startStack base path) =
      if path.head? = some slash then [slash] else base := by
  obtain ⟨stack, hstack, rfl⟩ := hbase.rendered
  rw [startStack, components_absolutePath hstack, apply_ite absolutePath]
  rfl

theorem resolvePath_ok_iff (path : List UInt8) :
    (∃ result, resolvePath base path = .ok result) ↔
      path ≠ [] ∧ path.length ≤ facetPathMax ∧ 0 ∉ path ∧
        StepsFit (startStack base path) (components slash path) := by
  have hhead : base.head? = some slash := by
    obtain ⟨stack, hstack, rfl⟩ := hbase.rendered
    exact head?_absolutePath stack
  have hfits : (absolutePath (startStack base path)).length ≤ facetPathMax := by
    rw [absolutePath_startStack hbase]
    split
    · decide
    · exact hbase.fits
  rw [← foldlM_resolveStep_ok_iff (startStack_names hbase)
    (fun part hpart => component_of_mem_components hpart) hfits, absolutePath_startStack hbase,
    resolvePath]
  have hshort : ¬ (path.head? ≠ some slash ∧ facetPathMax < base.length) :=
    fun hlong => absurd hbase.fits (by omega)
  simp only [ite_error_eq_ok, map_eq_ok, hshort, hhead, not_or, not_lt, not_not, ne_eq,
    not_false_eq_true, true_and, exists_and_left, and_assoc]
  refine and_congr_right fun _ => and_congr_right fun _ => and_congr_right fun _ => ?_
  constructor
  · rintro ⟨-, output, hfold, -⟩
    exact ⟨output, hfold⟩
  · rintro ⟨output, hfold⟩
    exact ⟨_, output, hfold, rfl⟩

theorem resolvePath_walk {requiresDirectory : Bool} {output : List UInt8}
    (hresolve : resolvePath base path = .ok (output, requiresDirectory)) :
    output = absolutePath (walk dot (startStack base path) (components slash path)) ∧
      requiresDirectory = pathRequiresDirectory path := by
  obtain ⟨stack, hstack, rfl⟩ := hbase.rendered
  refine ⟨?_, (resolvePath_eq_ok hresolve).2.2.1⟩
  rw [startStack, components_absolutePath hstack]
  exact resolvePath_ok hstack hresolve

/-- Resolving one path after another is resolving their concatenation. -/
theorem resolvePath_append {further middle : List UInt8}
    {directory : Bool} {result whole : List UInt8 × Bool}
    (hmiddle : resolvePath base path = .ok (middle, directory))
    (hrelative : further.head? ≠ some slash)
    (hresult : resolvePath middle further = .ok result)
    (hwhole : resolvePath base (path ++ slash :: further) = .ok whole) : result = whole := by
  have hcanonical := canonicalPath_of_resolvePath hbase hmiddle
  obtain ⟨hpath, -⟩ := (resolvePath_ok_iff hbase path).mp ⟨_, hmiddle⟩
  obtain ⟨hfurther, -⟩ := (resolvePath_ok_iff hcanonical further).mp ⟨_, hresult⟩
  obtain ⟨output, requires⟩ := result
  obtain ⟨other, flag⟩ := whole
  obtain ⟨rfl, -⟩ := resolvePath_walk hbase hmiddle
  obtain ⟨rfl, rfl⟩ := resolvePath_walk hcanonical hresult
  obtain ⟨rfl, rfl⟩ := resolvePath_walk hbase hwhole
  have hnames : NameStack (walk dot (startStack base path) (components slash path)) :=
    names_walk (startStack_names hbase) (fun part hpart => component_of_mem_components hpart)
  have hstart : startStack base (path ++ slash :: further) = startStack base path := by
    rw [startStack, startStack, List.head?_append_of_ne_nil _ hpath]
  rw [pathRequiresDirectory_append hfurther, hstart, components_append_separator, walk_append,
    startStack, if_neg hrelative, components_absolutePath hnames]

end Canonical

/-- Path resolution, for every canonical base and every path: the buffer is never
indexed outside its `FACET_PATH_MAX + 1` bytes; the call succeeds exactly on a
non-empty path without NUL that fits, as do all results on the way; the result is the
walk along the components, clamped at the root, and canonical; and resolving a
relative path against it is resolving the concatenation. -/
theorem resolve_path_exact {base : List UInt8} (hbase : CanonicalPath base) (path : List UInt8) :
    (∀ fresh : List UInt8, fresh.length = facetPathMax + 1 →
      resolveInPlace fresh base path = .ok (resolvePath base path)) ∧
      ((∃ result, resolvePath base path = .ok result) ↔
        path ≠ [] ∧ path.length ≤ facetPathMax ∧ 0 ∉ path ∧
          StepsFit (startStack base path) (components slash path)) ∧
      (∀ output requiresDirectory, resolvePath base path = .ok (output, requiresDirectory) →
        output = absolutePath (walk dot (startStack base path) (components slash path)) ∧
          requiresDirectory = pathRequiresDirectory path ∧ CanonicalPath output ∧
          ∀ further result whole, further.head? ≠ some slash →
            resolvePath output further = .ok result →
            resolvePath base (path ++ slash :: further) = .ok whole → result = whole) := by
  refine ⟨fun fresh hfresh => resolveInPlace_eq_ok hfresh base path,
    resolvePath_ok_iff hbase path, fun output requiresDirectory hresolve => ?_⟩
  obtain ⟨hwalk, hdirectory⟩ := resolvePath_walk hbase hresolve
  exact ⟨hwalk, hdirectory, canonicalPath_of_resolvePath hbase hresolve,
    fun further result whole hrelative hresult hwhole =>
      resolvePath_append hbase hresolve hrelative hresult hwhole⟩

/-- From "/a/b", "../c" leads to "/a/c". -/
theorem resolve_path_exact_sibling :
    absolutePath (walk dot (startStack (ascii "/a/b") (ascii "../c"))
      (components slash (ascii "../c"))) = ascii "/a/c" ∧
      CanonicalPath (ascii "/a/c") := by
  have hbase : CanonicalPath (ascii "/a/b") :=
    ⟨⟨[ascii "a", ascii "b"], by unfold NameStack Name Component; decide, by decide⟩,
      by decide, by decide⟩
  obtain ⟨hwalk, -, hcanonical, -⟩ :=
    (resolve_path_exact hbase (ascii "../c")).2.2 (ascii "/a/c") false (by decide)
  exact ⟨hwalk.symm, hcanonical⟩

end FacetOS.Initrd
