import FacetOS.Core.Memory
import FacetOS.Core.Runs
import FacetOS.Rpc.Common

/-!
# The pages of a child

A child asks its page allocator for pages of its own address space.  The allocator
keeps a record of every grant, takes back only what is recorded, and unmaps what is left
when the child is destroyed.
-/

namespace FacetOS.Platform

open ByteMemory Runs
open Rpc (FacetError)

structure Sel4ChildPageAllocation where
  base : UInt64
  pageCount : UInt64
  deriving DecidableEq

/-- `process` tells whether the allocator still belongs to a process. -/
structure Sel4ChildPageAllocator where
  process : Bool
  allocations : List Sel4ChildPageAllocation

variable (allocator : Sel4ChildPageAllocator)

/-- The answer of `vspace_new_pages` is zero when it fails; `record` tells whether there was
memory for a record. -/
def childPageAllocatorAlloc (count : UInt64) (record : Bool)
    (base : UInt64) : Except FacetError UInt64 × Sel4ChildPageAllocator :=
  if allocator.process = false ∨ count = 0 then (.error .invalidArgument, allocator)
  else if record = false ∨ base = 0 then (.error .outOfMemory, allocator)
  else (.ok base, { allocator with allocations := ⟨base, count⟩ :: allocator.allocations })

/-- The range that is unmapped, if any, is that of the first record that matches. -/
def childPageAllocatorFree (count base : UInt64) :
    Except FacetError Sel4ChildPageAllocation × Sel4ChildPageAllocator :=
  if allocator.process = false ∨ count = 0 ∨ base = 0 then (.error .invalidArgument, allocator)
  else if ⟨base, count⟩ ∈ allocator.allocations then
    (.ok ⟨base, count⟩,
      { allocator with allocations := allocator.allocations.erase ⟨base, count⟩ })
  else (.error .invalidArgument, allocator)

/-- The ranges that are unmapped. -/
def childPageAllocatorDestroy : List Sel4ChildPageAllocation × Sel4ChildPageAllocator :=
  (if allocator.process then allocator.allocations else [], ⟨false, []⟩)

/-! ## Runs -/

inductive PageCall
  | alloc (count : UInt64) (record : Bool) (base : UInt64)
  | free (count base : UInt64)

/-- The allocator, with all grants and all unmapped ranges so far. -/
structure PageHistory where
  allocator : Sel4ChildPageAllocator
  granted : List Sel4ChildPageAllocation
  unmapped : List Sel4ChildPageAllocation

def PageHistory.start : PageHistory := ⟨⟨true, []⟩, [], []⟩

def PageHistory.call (history : PageHistory) :
    PageCall → Except FacetError UInt64 × PageHistory
  | .alloc count record base =>
    let (result, allocator) := childPageAllocatorAlloc history.allocator count record base
    (result, ⟨allocator, history.granted ++ result.toOption.toList.map fun base => ⟨base, count⟩,
      history.unmapped⟩)
  | .free count base =>
    let (result, allocator) := childPageAllocatorFree history.allocator count base
    (result.map fun _ => 0,
      ⟨allocator, history.granted, history.unmapped ++ result.toOption.toList⟩)

/-- A grant that has not been unmapped since. -/
def PageHistory.Live (history : PageHistory) (grant : Sel4ChildPageAllocation) : Prop :=
  history.unmapped.count grant < history.granted.count grant

def Sel4ChildPageAllocation.range (grant : Sel4ChildPageAllocation) : Block :=
  ⟨grant.base.toNat, grant.pageCount.toNat * 4096⟩

/-- New pages lie apart from all pages that are still granted. -/
def FreshPages (history : PageHistory) : PageCall → Prop
  | .alloc count _ base => ∀ grant, history.Live grant →
      grant.range.Separate (Sel4ChildPageAllocation.range ⟨base, count⟩)
  | .free _ _ => True

/-- The records are the live grants. -/
structure Recorded (history : PageHistory) : Prop where
  process : history.allocator.process = true
  balanced : ∀ grant, history.granted.count grant
    = history.unmapped.count grant + history.allocator.allocations.count grant
  nodup : history.allocator.allocations.Nodup
  nonempty : ∀ grant ∈ history.allocator.allocations, grant.base ≠ 0 ∧ grant.pageCount ≠ 0

section Steps

variable {history : PageHistory} (hrecorded : Recorded history)
include hrecorded

theorem Recorded.live_iff {grant : Sel4ChildPageAllocation} :
    history.Live grant ↔ grant ∈ history.allocator.allocations := by
  rw [PageHistory.Live, hrecorded.balanced grant, ← List.count_pos_iff]
  omega

theorem Recorded.alloc {count base : UInt64} {record : Bool}
    (hfresh : FreshPages history (.alloc count record base)) :
    Recorded (history.call (.alloc count record base)).2 := by
  simp only [PageHistory.call, childPageAllocatorAlloc]
  split
  · simpa [Except.toOption] using hrecorded
  rename_i hcount
  split
  · simpa [Except.toOption] using hrecorded
  rename_i hbase
  simp only [not_or] at hcount hbase
  -- Pages that lie apart from all others cannot be recorded already.
  have hnew : ⟨base, count⟩ ∉ history.allocator.allocations := by
    intro hmem
    have hpositive : 0 < count.toNat := Nat.pos_of_ne_zero fun hzero =>
      hcount.2 (UInt64.toNat_inj.mp hzero)
    refine hfresh _ (hrecorded.live_iff.mpr hmem) base.toNat ?_ ?_
    all_goals exact ⟨le_rfl, by simp only [Sel4ChildPageAllocation.range]; omega⟩
  refine ⟨hrecorded.process, fun grant => ?_, List.nodup_cons.mpr ⟨hnew, hrecorded.nodup⟩,
    List.forall_mem_cons.mpr ⟨⟨hbase.2, hcount.2⟩, hrecorded.nonempty⟩⟩
  simp only [Except.toOption, Option.toList_some, List.map_cons, List.map_nil, List.count_append,
    List.count_cons, List.count_nil, hrecorded.balanced grant]
  omega

theorem Recorded.free {count base : UInt64} : Recorded (history.call (.free count base)).2 := by
  simp only [PageHistory.call, childPageAllocatorFree]
  split
  · simpa [Except.toOption] using hrecorded
  split
  · rename_i hmem
    refine ⟨hrecorded.process, fun grant => ?_, hrecorded.nodup.erase _, fun grant hgrant =>
      hrecorded.nonempty grant (List.mem_of_mem_erase hgrant)⟩
    have hcount := List.count_pos_iff.mpr hmem
    simp only [Except.toOption, Option.toList_some, List.count_append, List.count_singleton,
      List.count_erase, hrecorded.balanced grant]
    by_cases hsame : grant = ⟨base, count⟩
    · subst hsame
      simp
      omega
    · simp [Ne.symm hsame]
  · simpa [Except.toOption] using hrecorded

end Steps

/-- Pages are granted exactly if some are asked for and there is memory for them and for the
record.  If new pages lie apart from the granted ones, a release succeeds exactly for a live
grant and otherwise changes nothing.  No range is granted again, or unmapped, before it
was unmapped, or granted; and once the allocator is destroyed, every range has been
unmapped as often as it was granted. -/
theorem child_pages_exact {calls : List PageCall}
    (hfresh : Along PageHistory.call FreshPages .start calls) :
    let history := (outputs PageHistory.call .start calls).2
    (∀ count record base, (history.call (.alloc count record base)).1 = .ok base
        ↔ count ≠ 0 ∧ record = true ∧ base ≠ 0)
      ∧ (∀ count base, history.Live ⟨base, count⟩ ∧ (history.call (.free count base)).1 = .ok 0
          ∧ (history.call (.free count base)).2.unmapped = history.unmapped ++ [⟨base, count⟩]
        ∨ ¬ history.Live ⟨base, count⟩
          ∧ history.call (.free count base) = (.error .invalidArgument, history))
      ∧ (∀ grant, history.unmapped.count grant ≤ history.granted.count grant
        ∧ history.granted.count grant ≤ history.unmapped.count grant + 1)
      ∧ ∀ grant, (history.unmapped ++ (childPageAllocatorDestroy history.allocator).1).count grant
        = history.granted.count grant := by
  intro history
  have hrecorded : Recorded history := by
    refine invariant_along (fun history call hrecorded hcall => ?_) ?_ hfresh
    · cases call with
      | alloc count record base => exact hrecorded.alloc hcall
      | free count base => exact hrecorded.free
    · exact ⟨rfl, fun _ => rfl, .nil, nofun⟩
  refine ⟨fun count record base => ?_, fun count base => ?_, fun grant => ?_, fun grant => ?_⟩
  · cases record <;> by_cases hcount : count = 0 <;> by_cases hbase : base = 0 <;>
      simp [PageHistory.call, childPageAllocatorAlloc, hrecorded.process, hcount, hbase]
  · rw [hrecorded.live_iff]
    by_cases hmem : ⟨base, count⟩ ∈ history.allocator.allocations
    · obtain ⟨hbase, hcount⟩ := hrecorded.nonempty _ hmem
      left
      simp [PageHistory.call, childPageAllocatorFree, hrecorded.process, hbase, hcount, hmem,
        Except.toOption, Except.map]
    · right
      simp [PageHistory.call, childPageAllocatorFree, hmem, Except.toOption, Except.map]
  · have hbalanced := hrecorded.balanced grant
    have honce := List.nodup_iff_count_le_one.mp hrecorded.nodup grant
    omega
  · rw [childPageAllocatorDestroy, if_pos hrecorded.process, List.count_append,
      hrecorded.balanced grant]

/-- Two grants, of which the first is released: then only the second one can be. -/
theorem child_pages_exact_released :
    let history := (outputs PageHistory.call .start
      [.alloc 1 true 4096, .alloc 2 true 8192, .free 1 4096]).2
    history.unmapped = [⟨4096, 1⟩] ∧ (history.call (.free 2 8192)).1 = .ok 0
      ∧ (history.call (.free 1 4096)).1 = .error .invalidArgument := by
  have hfresh : Along PageHistory.call FreshPages .start
      [.alloc 1 true 4096, .alloc 2 true 8192, .free 1 4096] := by
    refine ⟨fun grant hlive => absurd hlive (Nat.not_lt_zero _), fun grant hlive => ?_, trivial,
      trivial⟩
    have hfirst : grant ∈ [⟨4096, 1⟩] := List.count_pos_iff.mp (Nat.zero_lt_of_lt hlive)
    obtain rfl := List.mem_singleton.mp hfirst
    exact fun position hleft hright => absurd (hright.1.trans_lt hleft.2) (by decide)
  have hrelease := (child_pages_exact hfresh).2.1
  refine ⟨rfl, ?_, ?_⟩
  · obtain ⟨-, hdone, -⟩ | ⟨hdead, -⟩ := hrelease 2 8192
    · exact hdone
    · exact absurd (by unfold PageHistory.Live; decide) hdead
  · obtain ⟨hlive, -⟩ | ⟨-, hcall⟩ := hrelease 1 4096
    · exact absurd hlive (by unfold PageHistory.Live; decide)
    · rw [hcall]

end FacetOS.Platform
