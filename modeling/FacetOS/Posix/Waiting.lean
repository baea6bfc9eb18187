import FacetOS.Rpc.Common

/-!
# Waiting for a process

`waitpid` asks the wait service of the POSIX view until an answer ends its loop.  Nothing
is assumed of the answers: they are an arbitrary sequence.
-/

namespace FacetOS.Posix

open Rpc

def eio : Int32 := 5
def echild : Int32 := 10
def eagain : Int32 := 11
def enotsup : Int32 := 95

/-- What a call of `wait_process` returns, and what it leaves in `result_status` and
`error`. -/
structure WaitAnswer where
  result : Except FacetError Unit
  status : Int32
  error : Int32

def WaitAnswer.outcome (answer : WaitAnswer) : Except Int32 Int32 :=
  if answer.result ≠ .ok () ∨ answer.error ≠ 0 then
    .error (if answer.error = 0 then eio else answer.error)
  else .ok answer.status

/-- The loop of `wait_view` for a number of rounds, with the number of answers it has taken
when it ends. -/
def waitView (answers : ℕ → WaitAnswer) : ℕ → ℕ → Option (ℕ × Except Int32 Int32)
  | 0, _ => none
  | rounds + 1, asked =>
    if (answers asked).result = .ok () ∧ (answers asked).error ≠ 0 then
      waitView answers rounds (asked + 1)
    else some (asked + 1, (answers asked).outcome)

/-- A call ends with the pid and the status or with an `errno`. -/
def waitpid (answers : ℕ → WaitAnswer) (rounds : ℕ) (pid options : Int32) :
    Option (ℕ × Except Int32 (Int32 × Int32)) :=
  if options ≠ 0 then some (0, .error enotsup)
  else (waitView answers rounds 0).map (fun ended => (ended.1, ended.2.map (pid, ·)))

/-- The child is still running. -/
def WaitAnswer.Again (answer : WaitAnswer) : Prop :=
  answer.result = .ok () ∧ answer.error = eagain

/-- What a caller should get from the answer that ends the waiting. -/
def WaitAnswer.reported (answer : WaitAnswer) (pid : Int32) : Except Int32 (Int32 × Int32) :=
  if answer.error = 0 then .ok (pid, answer.status) else .error answer.error

variable {answers : ℕ → WaitAnswer} {rounds asked count : ℕ}

theorem waitView_of_again (hagain : ∀ index < count, (answers (asked + index)).Again) :
    waitView answers (count + rounds) asked = waitView answers rounds (asked + count) := by
  induction count generalizing asked with
  | zero => rw [Nat.zero_add, Nat.add_zero]
  | succ count ih =>
    obtain ⟨hresult, herror⟩ := hagain 0 count.succ_pos
    rw [Nat.add_zero] at hresult herror
    rw [Nat.succ_add, waitView, if_pos ⟨hresult, herror ▸ by decide⟩, ih, Nat.succ_add_eq_add_succ]
    intro index hindex
    rw [Nat.succ_add_eq_add_succ]
    exact hagain (index + 1) (Nat.succ_lt_succ hindex)

/-- The loop ends at an answer that is not a success with an error. -/
theorem waitView_eq_some {outcome : Except Int32 Int32}
    (hended : waitView answers rounds asked = some (count + 1, outcome)) :
    ¬ ((answers count).result = .ok () ∧ (answers count).error ≠ 0)
      ∧ (answers count).outcome = outcome := by
  induction rounds generalizing asked with
  | zero => cases hended
  | succ rounds ih =>
    rw [waitView] at hended
    split at hended
    · exact ih hended
    · rename_i hends
      obtain ⟨hcount, houtcome⟩ := Prod.mk.inj (Option.some.inj hended)
      obtain rfl := Nat.succ.inj hcount
      exact ⟨hends, houtcome⟩

/-- Behind answers that say `EAGAIN`, a call returns with what the next answer reports
exactly when that answer is an error of a failed call or the status of a successful
one. -/
theorem waitpid_returns_iff (pid : Int32) (hagain : ∀ index < count, (answers index).Again) :
    (∃ rounds, waitpid answers rounds pid 0 = some (count + 1, (answers count).reported pid))
      ↔ ((answers count).result = .ok () ↔ (answers count).error = 0) := by
  constructor
  · rintro ⟨rounds, hreturn⟩
    obtain ⟨⟨taken, outcome⟩, hended, hreport⟩ := Option.map_eq_some_iff.mp hreturn
    obtain ⟨rfl, hreported⟩ := Prod.mk.inj hreport
    obtain ⟨hends, rfl⟩ := waitView_eq_some hended
    refine ⟨fun hresult => not_not.mp fun herror => hends ⟨hresult, herror⟩, fun herror => ?_⟩
    by_contra hfailed
    simp [WaitAnswer.outcome, WaitAnswer.reported, herror, hfailed, Except.map] at hreported
  · intro hiff
    refine ⟨count + 1, ?_⟩
    have hends : ¬ ((answers count).result = .ok () ∧ (answers count).error ≠ 0) :=
      fun hboth => hboth.2 (hiff.mp hboth.1)
    rw [waitpid, if_neg (by decide), waitView_of_again (by simpa using hagain), Nat.zero_add,
      waitView, if_neg hends]
    by_cases herror : (answers count).error = 0
    · simp [WaitAnswer.outcome, WaitAnswer.reported, herror, hiff.mpr herror, Except.map]
    · simp [WaitAnswer.outcome, WaitAnswer.reported, herror, Except.map]

theorem waitpid_returns_iff_exited :
    ∃ rounds, waitpid (fun index => ⟨.ok (), 3, if index = 0 then eagain else 0⟩) rounds 7 0
      = some (2, .ok (7, 3)) :=
  (@waitpid_returns_iff (fun index => ⟨.ok (), 3, if index = 0 then eagain else 0⟩) 1 7
    (fun index hindex => by rw [Nat.lt_one_iff.mp hindex]; exact ⟨rfl, rfl⟩)).mpr (by decide)

/-- A call for an unknown pid waits for ever. -/
theorem waitpid_unknown_stuck :
    ¬ (⟨.ok (), -1, echild⟩ : WaitAnswer).Again ∧
      ∀ rounds, waitpid (fun _ => ⟨.ok (), -1, echild⟩) rounds 7 0 = none := by
  refine ⟨fun hagain => absurd hagain.2 (by decide), fun rounds => ?_⟩
  have hstuck : ∀ asked, waitView (fun _ => ⟨.ok (), -1, echild⟩) rounds asked = none := by
    induction rounds with
    | zero => exact fun _ => rfl
    | succ rounds ih =>
      intro asked
      rw [waitView, if_pos (by decide)]
      exact ih _
  rw [waitpid, if_neg (by decide), hstuck]
  rfl

end FacetOS.Posix
