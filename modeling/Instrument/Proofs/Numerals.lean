import Instrument.Document.Assignment
import Mathlib.Data.List.TakeWhile

namespace Instrument

open Text

/-- A number written out: digits, and perhaps a minus before them. -/
inductive WholeNumeral : List Char → Prop
  | plain (digits : List Char) (hne : digits ≠ []) (hdigits : ∀ ch ∈ digits, ch.isDigit = true) :
      WholeNumeral digits
  | negative (digits : List Char) (hne : digits ≠ []) (hdigits : ∀ ch ∈ digits, ch.isDigit = true) :
      WholeNumeral ('-' :: digits)

theorem wholeNumeral_shown (d : Int) : WholeNumeral (Datum.number (.int d)).shown.toList := by
  have hnat (n : Nat) : n.repr.toList ≠ [] ∧ ∀ ch ∈ n.repr.toList, ch.isDigit = true := by
    rw [Nat.toList_repr]
    exact ⟨Nat.toDigits_ne_nil, fun ch hch => Nat.isDigit_of_mem_toDigits (by decide) (by decide) hch⟩
  cases d with
  | ofNat n => exact .plain _ (hnat n).1 (hnat n).2
  | negSucc n =>
      have hshown : (Datum.number (.int (.negSucc n))).shown.toList = '-' :: (n + 1).repr.toList :=
        String.toList_append
      rw [hshown]
      exact .negative _ (hnat (n + 1)).1 (hnat (n + 1)).2

section Digits

variable {digits : List Char} (hdigits : ∀ ch ∈ digits, ch.isDigit = true)
include hdigits

theorem digitsFront_eq : Number.digitsFront digits = (digits, []) := by
  have hall : ∀ ch ∈ digits, isDigit ch = true := fun ch hch => isDigit_of_isDigit (hdigits ch hch)
  have hfront := Number.digitsFront_append digits
  have hrest : (Number.digitsFront digits).2 = [] := by
    rw [Number.digitsFront, List.dropWhile_eq_nil_iff]
    exact hall
  rw [hrest, List.append_nil] at hfront
  exact Prod.ext hfront hrest

theorem numeralFront?_eq (hne : digits ≠ []) : Number.numeralFront? digits = some (digits, []) := by
  rw [Number.numeralFront?, digitsFront_eq hdigits]
  cases digits with
  | nil => exact absurd rfl hne
  | cons ch rest => rfl

end Digits

namespace WholeNumeral

variable {cs : List Char}

theorem ne_nil (h : WholeNumeral cs) : cs ≠ [] := by
  cases h with
  | plain _ hne hdigits => exact hne
  | negative digits hne hdigits => exact List.cons_ne_nil _ _

theorem not_isName (h : WholeNumeral cs) : isName cs = false := by
  have hstart : ∀ ch : Char, ch.isDigit = true → isNameStart ch = false := by
    intro ch hch
    have hdigit : (decide (48 ≤ ch.val) && decide (ch.val ≤ 57)) = true := hch
    rw [Bool.and_eq_true, decide_eq_true_eq, decide_eq_true_eq, UInt32.le_iff_toNat_le,
      UInt32.le_iff_toNat_le] at hdigit
    have hbelow (bound : UInt32) (h : 57 < bound.toNat) : ¬bound ≤ ch.val := by
      rw [UInt32.le_iff_toNat_le]
      exact Nat.not_le.2 (Nat.lt_of_le_of_lt hdigit.2 h)
    have hupper : ch.isUpper = false := decide_eq_false fun h => hbelow 65 (by decide) h.1
    have hlower : ch.isLower = false := by
      refine Bool.and_eq_false_iff.2 (.inl (decide_eq_false ?_))
      exact hbelow 97 (by decide)
    have hunderscore : ch ≠ '_' := by
      rintro rfl
      exact absurd hch (by decide)
    have halpha : ch.isAlpha = (ch.isUpper || ch.isLower) := rfl
    rw [isNameStart, halpha, hupper, hlower, beq_false_of_ne hunderscore]
    rfl
  cases h with
  | plain _ hne hdigits =>
      cases cs with
      | nil => rfl
      | cons ch rest => rw [isName, hstart ch (hdigits ch List.mem_cons_self), Bool.false_and]
  | negative digits hne hdigits => rfl

theorem not_isArithmetic (h : WholeNumeral cs) : Expr.isArithmetic cs = false := by
  have hplain : Expr.isPlainNumeral cs = true := by
    cases h with
    | plain _ hne hdigits =>
        obtain ⟨ch, rest, rfl⟩ := List.exists_cons_of_ne_nil hne
        have hminus : ch ≠ '-' := by
          rintro rfl
          exact absurd (hdigits '-' List.mem_cons_self) (by decide)
        simp [Expr.isPlainNumeral, hminus, digitsFront_eq hdigits]
    | negative digits hne hdigits => simpa [Expr.isPlainNumeral, digitsFront_eq hdigits] using hne
  rw [Expr.isArithmetic, hplain, Bool.not_true, Bool.and_false]

theorem numberFront?_eq (h : WholeNumeral cs) : Document.numberFront? cs = some (cs, []) := by
  have hexponent : Document.exponentFront [] = ([], []) := rfl
  cases h with
  | plain _ hne hdigits =>
      obtain ⟨ch, rest, rfl⟩ := List.exists_cons_of_ne_nil hne
      have hminus : ch ≠ '-' := by
        rintro rfl
        exact absurd (hdigits '-' List.mem_cons_self) (by decide)
      have hplus : ch ≠ '+' := by
        rintro rfl
        exact absurd (hdigits '+' List.mem_cons_self) (by decide)
      simp [Document.numberFront?, hminus, hplus, numeralFront?_eq hdigits hne, hexponent]
  | negative digits hne hdigits =>
      simp [Document.numberFront?, numeralFront?_eq hdigits hne, hexponent]

theorem assign_eq (h : WholeNumeral cs) (strict : Bool) (owner : Owner) (attr : String)
    {schema : AttributeSchema} (htype : schema.type ≠ .choice) (current : Attribute)
    (info : Option NameInfo) :
    (Document.assign strict owner attr (some schema) current cs info).attr =
        current.withValue (some (.literal (Datum.ofText cs))) ∧
      ∀ complaint ∈ (Document.assign strict owner attr (some schema) current cs info).complaints,
        complaint.severity = .warning := by
  have htype' : (schema.type == .choice) = false := beq_eq_false_iff_ne.2 htype
  simp only [Document.assign, h.not_isName, Document.assignTyped, htype', h.not_isArithmetic,
    Bool.false_eq_true, if_false, Bool.not_false, Bool.and_true, Document.plainValue]
  split
  · rw [Document.measure]
    split
    · rw [h.numberFront?_eq]
      exact ⟨rfl, by simp [Document.Complaint.severity]⟩
    · exact ⟨rfl, by simp [Document.Assigned.clean]⟩
  · exact ⟨rfl, by simp [Document.Assigned.clean]⟩

end WholeNumeral

end Instrument
