import FacetOS.FileView.Operations
import FacetOS.FileView.Search

/-!
# The candidate path of a directory

A credential directory joins its own path and the caller's to a candidate and
normalises that in place, as a C string.  The result is the walk along the
components of that string, so that it agrees with the archive's own resolution
wherever that accepts the caller's path.
-/

namespace FacetOS.FileView

open Initrd Paths
open Rpc (FacetError)

/-! ## The loop -/

/-- The buffer while the loop has reached `stack`: nothing is written before the
first name. -/
def Written (buffer : List UInt8) (stack : List (List UInt8)) : Prop :=
  buffer = [] ∧ stack = [] ∨ buffer = absolutePath stack

variable {stack : List (List UInt8)}

theorem written_candidateStep {buffer part : List UInt8}
    (hwritten : Written buffer stack) (hstack : NameStack stack) :
    Written (candidateStep buffer part) (enter dot stack part) := by
  unfold candidateStep enter
  by_cases hdot : part = [dot]
  · rw [if_pos hdot, if_pos hdot]
    exact hwritten
  rw [if_neg hdot, if_neg hdot]
  by_cases hparent : part = [dot, dot]
  · rw [if_pos hparent, if_pos hparent]
    cases hwritten with
    | inl hstart =>
      obtain ⟨rfl, rfl⟩ := hstart
      exact .inl ⟨rfl, rfl⟩
    | inr hrendered =>
      right
      rw [hrendered]
      exact retreat_rendered [slash] (fun name hname => (hstack name hname).1)
  · rw [if_neg hparent, if_neg hparent]
    right
    rw [absolutePath_concat]
    cases hwritten with
    | inl hstart =>
      obtain ⟨rfl, rfl⟩ := hstart
      simp [absolutePath, rendered]
    | inr hrendered =>
      rw [hrendered]
      by_cases hroot : stack = []
      · simp [hroot, absolutePath, rendered]
      · rw [if_pos (.inr (getLast?_absolutePath_ne hstack hroot)), if_neg hroot]

theorem written_foldl {parts : List (List UInt8)} {buffer : List UInt8}
    (hwritten : Written buffer stack) (hstack : NameStack stack)
    (hparts : ∀ part ∈ parts, Component slash part) :
    Written (parts.foldl candidateStep buffer) (walk dot stack parts) := by
  induction parts generalizing buffer stack with
  | nil => exact hwritten
  | cons part parts ih =>
    rw [List.foldl_cons, walk_cons]
    exact ih (written_candidateStep hwritten hstack)
      (enter_names hstack (hparts part List.mem_cons_self))
      (fun other hother => hparts other (List.mem_cons_of_mem _ hother))

/-- The names that a byte string leads to from the root. -/
def walked (bytes : List UInt8) : List (List UInt8) :=
  walk dot [] (components slash bytes)

/-- The loop renders the walk along the C string in the candidate. -/
theorem normalizeCandidate_eq (candidate : List UInt8) :
    normalizeCandidate candidate = absolutePath (walked (cString candidate)) := by
  have hparts : ∀ part ∈ components slash (cString candidate), Component slash part :=
    fun part hpart => component_of_mem_components hpart
  have hwritten := written_foldl (.inl ⟨rfl, rfl⟩) (List.forall_mem_nil _) hparts
  change Written _ (walked (cString candidate)) at hwritten
  unfold normalizeCandidate
  cases hwritten with
  | inl hstart =>
    rw [hstart.1, if_pos rfl, hstart.2]
    rfl
  | inr hrendered =>
    have hpositive := length_absolutePath_pos (walked (cString candidate))
    rw [hrendered, if_neg (List.length_pos_iff.mp hpositive)]

/-! ## Agreement with the archive's resolution -/

/-- The normalised candidate is canonical, except that nothing bounds its length. -/
theorem zero_not_mem_normalizeCandidate (candidate : List UInt8) :
    0 ∉ normalizeCandidate candidate := by
  rw [normalizeCandidate_eq]
  exact zero_not_mem_walk (List.forall_mem_nil _) (zero_not_mem_cString candidate)

/-- The names that a directory's candidate for a path leads to. -/
theorem walked_candidatePath (hstack : NameStack stack)
    (hzero : 0 ∉ absolutePath stack) (path : List UInt8) :
    walked (cString (candidatePath (absolutePath stack) path))
      = walk dot (if path.head? = some slash then [] else stack)
        (components slash (cString path)) := by
  unfold candidatePath
  split
  · rfl
  · have hslash : cString (slash :: path) = slash :: cString path := by
      simp [cString, slash]
    rw [cString_append hzero, hslash, walked, components_append_separator, walk_append,
      components_absolutePath hstack, walk_names [] hstack, List.nil_append]

/-- Where the archive resolves a path, the candidate is the resolved path. -/
theorem normalizeCandidate_of_resolvePath {base path output : List UInt8}
    {requiresDirectory : Bool} (hbase : CanonicalPath base)
    (hresolve : resolvePath base path = .ok (output, requiresDirectory)) :
    normalizeCandidate (candidatePath base path) = output := by
  obtain ⟨stack, hstack, rfl⟩ := hbase.rendered
  rw [normalizeCandidate_eq, walked_candidatePath hstack hbase.terminated,
    cString_eq_self (resolvePath_eq_ok hresolve).2.1, resolvePath_ok hstack hresolve]

end FacetOS.FileView
