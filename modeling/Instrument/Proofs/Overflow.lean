import Instrument.Proofs.Rounding
import Instrument.Proofs.Substitution

namespace Instrument

open Binary64 (limit)

variable {o : Overflow}

namespace Number

variable {x y : Number}

/-- A whole number without a binary64 value near it. -/
def TooLarge : Number → Prop
  | int i => limit ≤ i.natAbs
  | float _ => False

inductive Outgrows : Number → Number → Prop
  | left {i f} (h : (int i).TooLarge) : Outgrows (int i) (float f)
  | right {f i} (h : (int i).TooLarge) : Outgrows (float f) (int i)

/-- What two numbers exceed under an operator. -/
inductive Exceeds : String → Number → Number → Overflow → Prop
  | mixed {operator x y} (hoperator : operator ∈ ["+", "-", "*", "/"]) (h : Outgrows x y) :
      Exceeds operator x y .operand
  | quotient {i j} (hj : j ≠ 0) (hi : limit * j.natAbs ≤ i.natAbs) :
      Exceeds "/" (int i) (int j) .quotient
  | zero {i} (h : (int i).TooLarge) : Exceeds "/" (int i) (int 0) .operand

theorem toFloat_eq_error : x.toFloat = .error o ↔ o = .operand ∧ x.TooLarge := by
  cases x with
  | float f => simp [TooLarge]
  | int i =>
      rw [toFloat, TooLarge, ← ofInt?_eq_none_iff]
      cases ofInt? i <;> simp [eq_comm]

theorem not_tooLarge_of_isZero (h : x.isZero = true) : ¬ x.TooLarge := by
  cases x with
  | float f => exact not_false
  | int i =>
      obtain rfl : i = 0 := by simpa [isZero] using h
      exact not_le.mpr Binary64.limit_pos

theorem toFloat_both_eq_error {f : Float → Float → Number} :
    (x.toFloat >>= fun a => y.toFloat >>= fun b => pure (f a b)) = Except.error o ↔
      o = .operand ∧ (x.TooLarge ∨ y.TooLarge) := by
  rw [Expr.bind_eq_error, toFloat_eq_error]
  constructor
  · rintro (⟨rfl, hx⟩ | ⟨a, ha, h⟩)
    · exact ⟨rfl, .inl hx⟩
    · rcases Expr.bind_eq_error.mp h with hy | ⟨b, hb, h⟩
      · exact (toFloat_eq_error.mp hy).imp_right .inr
      · cases h
  · rintro ⟨rfl, h⟩
    cases hx : x.toFloat with
    | error e => exact .inl ⟨rfl, (toFloat_eq_error.mp hx).2⟩
    | ok a =>
        have hsmall : ¬ x.TooLarge := fun hlarge => by
          rw [toFloat_eq_error.mpr ⟨rfl, hlarge⟩] at hx
          cases hx
        have hy := toFloat_eq_error.mpr ⟨rfl, h.resolve_left hsmall⟩
        exact .inr ⟨a, rfl, Expr.bind_eq_error.mpr (.inl hy)⟩

theorem outgrows_iff (hmixed : ∀ i j, x = int i → y ≠ int j) :
    Outgrows x y ↔ x.TooLarge ∨ y.TooLarge := by
  constructor
  · intro h
    cases h with
    | left h => exact .inl h
    | right h => exact .inr h
  · intro h
    cases x with
    | int i =>
        cases y with
        | int j => exact absurd rfl (hmixed i j rfl)
        | float g => exact .left (h.resolve_right not_false)
    | float f =>
        cases y with
        | int j => exact .right (h.resolve_left not_false)
        | float g => exact h.elim False.elim False.elim

theorem combine_eq_error {whole : Int → Int → Int} {other : Float → Float → Float} :
    combine whole other x y = .error o ↔ o = .operand ∧ Outgrows x y := by
  cases x with
  | int i =>
      cases y with
      | int j =>
          constructor
          · rintro ⟨⟩
          · rintro ⟨-, ⟨⟩⟩
      | float g =>
          rw [outgrows_iff (by simp)]
          exact toFloat_both_eq_error
  | float f =>
      rw [outgrows_iff (by simp)]
      cases y <;> exact toFloat_both_eq_error

theorem exceeds_of_mixed (hmixed : ∀ i j, x = int i → y ≠ int j) :
    Exceeds "/" x y o ↔ o = .operand ∧ (x.TooLarge ∨ y.TooLarge) := by
  constructor
  · intro h
    cases h with
    | mixed _ h => exact ⟨rfl, (outgrows_iff hmixed).mp h⟩
    | quotient | zero => exact absurd rfl (hmixed _ _ rfl)
  · rintro ⟨rfl, h⟩
    exact .mixed (by simp) ((outgrows_iff hmixed).mpr h)

theorem quotient_eq_error (hy : y.isZero = false) :
    x.quotient y = .error o ↔ Exceeds "/" x y o := by
  cases x with
  | int i =>
      cases y with
      | int j =>
          have hj : j ≠ 0 := by simpa [isZero] using hy
          rw [quotient]
          cases hnear : Binary64.nearest? ((i < 0) != (j < 0)) i.natAbs j.natAbs with
          | some f =>
              have hsmall : ¬ limit * j.natAbs ≤ i.natAbs := by
                rw [← Binary64.nearest?_eq_none_iff (Int.natAbs_pos.mpr hj), hnear]
                simp
              constructor
              · rintro ⟨⟩
              · intro h
                cases h with
                | mixed _ h => cases h
                | quotient _ hi => exact absurd hi hsmall
                | zero => exact absurd rfl hj
          | none =>
              have hi := (Binary64.nearest?_eq_none_iff (Int.natAbs_pos.mpr hj)).mp hnear
              constructor
              · rintro ⟨⟩
                exact .quotient hj hi
              · intro h
                cases h with
                | mixed _ h => cases h
                | quotient => rfl
                | zero => exact absurd rfl hj
      | float g =>
          rw [exceeds_of_mixed (by simp)]
          exact toFloat_both_eq_error
  | float f =>
      rw [exceeds_of_mixed (by simp)]
      cases y <;> exact toFloat_both_eq_error

theorem exceeds_zero_iff (hy : y.isZero = true) :
    Exceeds "/" x y o ↔ o = .operand ∧ (x.TooLarge ∨ y.TooLarge) := by
  by_cases hmixed : ∀ i j, x = int i → y ≠ int j
  · exact exceeds_of_mixed hmixed
  · -- Whole numbers have no quotient by zero that could be too large.
    push Not at hmixed
    obtain ⟨i, j, rfl, rfl⟩ := hmixed
    obtain rfl : j = 0 := by simpa [isZero] using hy
    constructor
    · intro h
      cases h with
      | mixed _ h => cases h
      | quotient hj => exact absurd rfl hj
      | zero h => exact ⟨rfl, .inl h⟩
    · rintro ⟨rfl, h⟩
      exact .zero (h.resolve_right (not_tooLarge_of_isZero hy))

theorem div_eq_error : x.div y = .error o ↔ Exceeds "/" x y o := by
  rw [div]
  cases hy : y.isZero with
  | false => exact quotient_eq_error hy
  | true =>
      rw [exceeds_zero_iff hy]
      cases hx : x.isZero || x.isNaN with
      | false => exact toFloat_both_eq_error
      | true =>
          have hsmall : ¬ x.TooLarge := by
            cases x with
            | float f => exact not_false
            | int i => exact not_tooLarge_of_isZero (by simpa [isNaN] using hx)
          constructor
          · rintro ⟨⟩
          · rintro ⟨-, h⟩
            exact h.elim (absurd · hsmall) (absurd · (not_tooLarge_of_isZero hy))

end Number

namespace Datum

variable {a b : Datum}

theorem ofNumber_eq_overflow {result : Except Overflow Number} :
    ofNumber result = .error (.overflow o) ↔ result = .error o := by
  cases result <;> simp [ofNumber, Except.map, Except.mapError]

theorem join_ne_overflow : a.join b ≠ .error (.overflow o) := by
  cases a <;> cases b <;> simp [join]

theorem repetitions_ne_overflow {times : Datum} : repetitions times ≠ .error (.overflow o) := by
  rw [repetitions]
  split
  · split <;> simp
  · simp

theorem repeatText_ne_overflow {s : String} {times : Datum} :
    repeatText s times ≠ .error (.overflow o) := by
  intro h
  rcases Expr.bind_eq_error.mp h with h | ⟨n, -, h⟩
  · exact repetitions_ne_overflow h
  · simp only at h
    split at h <;> cases h

theorem repeatList_ne_overflow {items : List Datum} {times : Datum} :
    repeatList items times ≠ .error (.overflow o) := by
  intro h
  rcases Expr.bind_eq_error.mp h with h | ⟨n, -, h⟩
  · exact repetitions_ne_overflow h
  · cases h

theorem repeated_ne_overflow : a.repeated b ≠ .error (.overflow o) := by
  fun_cases repeated a b
  · exact repeatText_ne_overflow
  · exact repeatList_ne_overflow
  · exact repeatText_ne_overflow
  · exact repeatList_ne_overflow
  · simp

end Datum

namespace Expr

variable {operator : String} {a b : Datum}

theorem orOperand_eq_overflow {result : Except OperandError Datum} :
    orOperand result = .error (.escape (.operand (.overflow o))) ↔ result = .error (.overflow o) := by
  cases result <;> simp [orOperand, Except.mapError]

theorem quantities_of_overflow (h : applyBinary operator a b = .error (.escape (.operand (.overflow o)))) :
    ∃ x y, a.quantity? = some x ∧ b.quantity? = some y := by
  rw [applyBinary] at h
  split at h
  · rw [orOperand_eq_overflow, Datum.add] at h
    split at h
    · exact ⟨_, _, ‹_›, ‹_›⟩
    · exact absurd h Datum.join_ne_overflow
  split at h
  · rw [orOperand_eq_overflow, Datum.sub] at h
    split at h
    · exact ⟨_, _, ‹_›, ‹_›⟩
    · cases h
  split at h
  · rw [orOperand_eq_overflow, Datum.mul] at h
    split at h
    · exact ⟨_, _, ‹_›, ‹_›⟩
    · exact absurd h Datum.repeated_ne_overflow
  split at h
  · rw [orOperand_eq_overflow, Datum.div] at h
    split at h
    · exact ⟨_, _, ‹_›, ‹_›⟩
    · split at h <;> cases h
    · cases h
  · cases h

theorem exceeds_iff_outgrows {x y : Number} (hoperator : operator ∈ ["+", "-", "*"]) :
    Number.Exceeds operator x y o ↔ o = .operand ∧ x.Outgrows y := by
  constructor
  · intro h
    cases h with
    | mixed _ h => exact ⟨rfl, h⟩
    | quotient | zero => simp at hoperator
  · rintro ⟨rfl, h⟩
    exact .mixed (List.mem_append_left ["/"] hoperator) h

theorem orOperand_ofNumber_eq_overflow {result : Except Overflow Number} :
    orOperand (Datum.ofNumber result) = .error (.escape (.operand (.overflow o))) ↔ result = .error o :=
  orOperand_eq_overflow.trans Datum.ofNumber_eq_overflow

theorem applyBinary_of_quantities {x y : Number} (ha : a.quantity? = some x)
    (hb : b.quantity? = some y) :
    applyBinary operator a b = .error (.escape (.operand (.overflow o))) ↔ Number.Exceeds operator x y o := by
  by_cases hknown : operator ∈ ["+", "-", "*", "/"]
  · simp only [List.mem_cons, List.not_mem_nil, or_false] at hknown
    obtain rfl | rfl | rfl | rfl := hknown
    · have happly : applyBinary "+" a b = orOperand (Datum.ofNumber (x.add y)) := by
        simp [applyBinary, Datum.add, ha, hb]
      rw [happly, orOperand_ofNumber_eq_overflow, exceeds_iff_outgrows (by simp)]
      exact Number.combine_eq_error
    · have happly : applyBinary "-" a b = orOperand (Datum.ofNumber (x.sub y)) := by
        simp [applyBinary, Datum.sub, ha, hb]
      rw [happly, orOperand_ofNumber_eq_overflow, exceeds_iff_outgrows (by simp)]
      exact Number.combine_eq_error
    · have happly : applyBinary "*" a b = orOperand (Datum.ofNumber (x.mul y)) := by
        simp [applyBinary, Datum.mul, ha, hb]
      rw [happly, orOperand_ofNumber_eq_overflow, exceeds_iff_outgrows (by simp)]
      exact Number.combine_eq_error
    · have happly : applyBinary "/" a b = orOperand (Datum.ofNumber (x.div y)) := by
        simp [applyBinary, Datum.div, ha, hb]
      rw [happly, orOperand_ofNumber_eq_overflow]
      exact Number.div_eq_error
  · have happly : applyBinary operator a b = .error (.invalid (.unknownOperator operator)) := by
      simp_all [applyBinary]
    rw [happly]
    constructor
    · intro h
      cases h
    · intro h
      cases h with
      | mixed hoperator _ => exact absurd hoperator hknown
      | quotient | zero => simp at hknown

theorem applyBinary_eq_overflow : applyBinary operator a b = .error (.escape (.operand (.overflow o))) ↔
    ∃ x y, a.quantity? = some x ∧ b.quantity? = some y ∧ Number.Exceeds operator x y o := by
  constructor
  · intro h
    obtain ⟨x, y, ha, hb⟩ := quantities_of_overflow h
    exact ⟨x, y, ha, hb, (applyBinary_of_quantities ha hb).mp h⟩
  · rintro ⟨x, y, ha, hb, h⟩
    exact (applyBinary_of_quantities ha hb).mpr h

theorem applyUnary_ne_overflow : applyUnary operator a ≠ .error (.escape (.operand (.overflow o))) := by
  rw [applyUnary]
  split
  · rw [Ne, orOperand_eq_overflow, Datum.neg]
    split <;> simp
  · simp

/-- What the operation of a tree exceeds that is done first of those that exceed anything. -/
inductive Tree.Exceeds : Tree → Overflow → Prop
  | unary {operator operand o} (h : operand.Exceeds o) : (unary operator operand).Exceeds o
  | left {operator left right o} (h : left.Exceeds o) : (binary operator left right).Exceeds o
  | right {operator left right a o} (hleft : left.evaluate = .ok a) (h : right.Exceeds o) :
      (binary operator left right).Exceeds o
  | operation {operator left right a b x y o} (hleft : left.evaluate = .ok a)
      (hright : right.evaluate = .ok b) (hx : a.quantity? = some x) (hy : b.quantity? = some y)
      (h : Number.Exceeds operator x y o) : (binary operator left right).Exceeds o

theorem Tree.exceeds_of_evaluate {tree : Tree}
    (h : tree.evaluate = .error (.escape (.operand (.overflow o)))) : tree.Exceeds o := by
  induction tree with
  | number | name | bare => cases h
  | unary operator operand ih =>
      rw [Tree.evaluate] at h
      split at h
      · cases h
        exact .unary (ih ‹_›)
      · exact absurd h applyUnary_ne_overflow
  | binary operator left right ihleft ihright =>
      rw [Tree.evaluate] at h
      split at h
      · cases h
        exact .left (ihleft ‹_›)
      · rename_i a hleft
        split at h
        · cases h
          exact .right hleft (ihright ‹_›)
        · rename_i b hright
          obtain ⟨x, y, hx, hy, h⟩ := applyBinary_eq_overflow.mp h
          exact .operation hleft hright hx hy h

theorem Tree.Exceeds.evaluate {tree : Tree} (h : tree.Exceeds o) :
    tree.evaluate = .error (.escape (.operand (.overflow o))) := by
  induction h with
  | unary _ ih | left _ ih => rw [Tree.evaluate, ih]
  | right hleft _ ih => rw [Tree.evaluate, hleft, ih]
  | operation hleft hright hx hy h =>
      rw [Tree.evaluate, hleft, hright]
      exact (applyBinary_of_quantities hx hy).mpr h

theorem Tree.evaluate_eq_overflow {tree : Tree} :
    tree.evaluate = .error (.escape (.operand (.overflow o))) ↔ tree.Exceeds o :=
  ⟨exceeds_of_evaluate, Exceeds.evaluate⟩

variable {value : String → Number} {tokens : List Token} {source : String}
  {lookup : String → Option Datum}

/-- What a text exceeds with a number for each of its names: by its arithmetic, or, where its tokens
form no tree, by a number that would have to be told of. -/
inductive Exceeds (source : String) (value : String → Number) : Escape → Prop
  | arithmetic {tokens : List Token} {tree : Tree} {o : Overflow} (hscan : scan source = .ok tokens)
      (hparse : parseTokens source.length tokens = .ok tree) (h : (tree.fill value).Exceeds o) :
      Exceeds source value (.operand (.overflow o))
  | telling {tokens : List Token} {e : ParseError} (hscan : scan source = .ok tokens)
      (hparse : parseTokens source.length tokens = .error e)
      (h : (e.fill value).isWritable = false) : Exceeds source value (.overlong .written)

theorem exceeds_of_tree {tree : Tree} {e : Escape} (hscan : scan source = .ok tokens)
    (hparse : parseTokens source.length tokens = .ok tree)
    (h : (tree.fill value).evaluate = .error (.escape e)) : Exceeds source value e := by
  have harith := arithmetical_of_scan value hscan
  rw [evaluateTokens, parseTokens_withNumber, hparse] at harith
  simp only [h] at harith
  cases harith with
  | overflow o => exact .arithmetic hscan hparse (Tree.evaluate_eq_overflow.mp h)
  | overlong o => exact absurd h (Tree.evaluate_ne_overlong _ o)

theorem evaluateTokens_eq_escape {e : Escape} (hscan : scan source = .ok tokens) :
    evaluateTokens source (tokens.map (Token.withNumber value)) = .error (.escape e) ↔
      Exceeds source value e := by
  rw [evaluateTokens, parseTokens_withNumber]
  constructor
  · intro h
    cases hparse : parseTokens source.length tokens with
    | ok tree =>
        rw [hparse] at h
        exact exceeds_of_tree hscan hparse h
    | error cause =>
        simp only [hparse, ParseError.stop] at h
        split at h
        · cases h
        · next hlong =>
            cases h
            exact .telling hscan hparse (by simpa using hlong)
  · intro h
    cases h with
    | arithmetic hscan' hparse h =>
        obtain rfl := Except.ok.inj (hscan.symm.trans hscan')
        simpa only [hparse] using Tree.evaluate_eq_overflow.mpr h
    | @telling _ cause hscan' hparse h =>
        obtain rfl := Except.ok.inj (hscan.symm.trans hscan')
        have hstop : (cause.fill value).stop = .overlong .written := if_neg (by simp [h])
        simp only [hparse, hstop]
        rfl

theorem evaluate_cases (lookup : String → Option Datum) (source : String) :
    (∃ e, evaluate lookup source = .error (.invalid e)) ∨
    (∃ o, evaluate lookup source = .error (.escape (.overlong o)) ∧
      Illegible (answering lookup) source o) ∨
    ∃ tokens, ∃ value : String → Number, scan source = .ok tokens ∧
      ∀ name ∈ namesOf tokens, numeric? lookup name = some (value name) := by
  rcases evaluateM_cases (evaluateM_answering lookup source) with
    hinvalid | hlong | ⟨tokens, value, hscan, hgives, -⟩
  · exact .inl hinvalid
  · exact .inr (.inl hlong)
  · exact .inr (.inr ⟨tokens, value, hscan, fun name hname => gives_answering.mp (hgives name hname)⟩)

theorem arithmetical_evaluate (lookup : String → Option Datum) (source : String) :
    Arithmetical (evaluate lookup source) :=
  arithmetical_of_evaluateM (evaluateM_answering lookup source)

/-- Evaluation fails otherwise than for a reason of the expression exactly where something in it is too
long, or where every name stands for a number and something is exceeded with these. -/
theorem evaluate_eq_escape {e : Escape} :
    evaluate lookup source = .error (.escape e) ↔
      (∃ o, e = .overlong o ∧ Illegible (answering lookup) source o) ∨
      ∃ tokens, ∃ value : String → Number, scan source = .ok tokens ∧
        (∀ name ∈ namesOf tokens, numeric? lookup name = some (value name)) ∧
        Exceeds source value e := by
  constructor
  · intro h
    rcases evaluate_cases lookup source with
      ⟨e', he⟩ | ⟨o, he, hlong⟩ | ⟨tokens, value, hscan, hvalue⟩
    · cases he.symm.trans h
    · cases he.symm.trans h
      exact .inl ⟨o, rfl, hlong⟩
    · rw [evaluate_eq_evaluateTokens hscan hvalue, evaluateTokens_eq_escape hscan] at h
      exact .inr ⟨tokens, value, hscan, hvalue, h⟩
  · rintro (⟨o, rfl, hlong⟩ | ⟨tokens, value, hscan, hvalue, h⟩)
    · exact Except.ok.inj ((evaluateM_answering lookup source).symm.trans hlong.evaluateM_eq)
    · rw [evaluate_eq_evaluateTokens hscan hvalue, evaluateTokens_eq_escape hscan]
      exact h

theorem evaluate?_eq_error {e : Escape} :
    evaluate? lookup source = .error e ↔ evaluate lookup source = .error (.escape e) := by
  rw [evaluate?]
  rcases evaluate lookup source with (e' | e') | d <;> simp

end Expr

end Instrument
