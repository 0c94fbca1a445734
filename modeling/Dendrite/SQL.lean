import Mathlib.Logic.Function.Basic

/-! What the storage layer needs of the relational store: the errors a statement can end in.
Tables are Lean values and statements are functions on them; a statement that fails leaves its
table as it was. -/

namespace Dendrite

inductive DBError
  | errNoRows
  | uniqueViolation (constraint : String)
  | nullScan (column : String)
  | unmarshal (column : String)
  | databaseFull
  /-- An error Go code builds itself with `errors.New` or `fmt.Errorf`, in the repository or in a
  library it calls. -/
  | message (text : String)
  deriving DecidableEq, Repr

instance instDecidableEqExcept {ε α : Type} [DecidableEq ε] [DecidableEq α] :
    DecidableEq (Except ε α)
  | .ok a, .ok b => decidable_of_iff (a = b) ⟨congrArg _, Except.ok.inj⟩
  | .error e, .error e' => decidable_of_iff (e = e') ⟨congrArg _, Except.error.inj⟩
  | .ok _, .error _ => isFalse nofun
  | .error _, .ok _ => isFalse nofun

theorem ok_bind {α β ε : Type} (a : α) (f : α → Except ε β) :
    (Except.ok a : Except ε α).bind f = f a := rfl

theorem bind_eq_ok {α β ε : Type} {x : Except ε α} {f : α → Except ε β} {b : β}
    (h : x >>= f = .ok b) : ∃ a, x = .ok a ∧ f a = .ok b := by
  cases x with
  | error e => cases h
  | ok a => exact ⟨a, rfl, h⟩

end Dendrite
