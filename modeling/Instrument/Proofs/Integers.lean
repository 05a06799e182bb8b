import Instrument.Proofs.Scanning
import Instrument.Proofs.Substitution

namespace Instrument.Expr

def ringOperation? (operator : String) : Option (Int → Int → Int) :=
  if operator = "+" then some (· + ·)
  else if operator = "-" then some (· - ·)
  else if operator = "*" then some (· * ·)
  else none

def wholeContent? : Datum → Option Int
  | .number (.int i) => some i
  | _ => none

/-- The value of a tree in the ring of whole numbers, with a whole number for each of its names. -/
def Tree.integer? (value : String → Int) : Tree → Option Int
  | number content => wholeContent? content
  | name s => some (value s)
  | unary operator operand =>
    if operator = "-" then (operand.integer? value).map fun i => -i else none
  | binary operator left right => do
    let operation ← ringOperation? operator
    return operation (← left.integer? value) (← right.integer? value)
  | bare _ => none

/-- A token of arithmetic on whole numbers: it is no division, and if it is a number, it is whole. -/
def Token.isIntegral (t : Token) : Bool :=
  match t.kind with
  | .divide => false
  | .number => (wholeContent? t.content).isSome
  | _ => true

variable {value : String → Int} {tree left right operand : Tree} {operator : String} {i : Int}

theorem wholeContent?_eq_some {content : Datum} (h : wholeContent? content = some i) :
    content = .int i := by
  unfold wholeContent? at h
  split at h <;> cases h
  rfl

theorem integer?_unary_eq_some : (Tree.unary operator operand).integer? value = some i ↔
    operator = "-" ∧ ∃ a, operand.integer? value = some a ∧ -a = i := by
  rw [Tree.integer?]
  split <;> simp [*]

theorem integer?_binary_eq_some : (Tree.binary operator left right).integer? value = some i ↔
    ∃ operation a b, ringOperation? operator = some operation ∧ left.integer? value = some a ∧
      right.integer? value = some b ∧ operation a b = i := by
  simp only [Tree.integer?, Option.bind_eq_bind, Option.pure_def, Option.bind_eq_some_iff,
    Option.some.injEq]
  constructor
  · rintro ⟨operation, hoperation, a, ha, b, hb, rfl⟩
    exact ⟨operation, a, b, hoperation, ha, hb, rfl⟩
  · rintro ⟨operation, a, b, hoperation, ha, hb, rfl⟩
    exact ⟨operation, hoperation, a, ha, b, hb, rfl⟩

theorem applyBinary_int {operation : Int → Int → Int} (h : ringOperation? operator = some operation)
    (a b : Int) : applyBinary operator (.int a) (.int b) = .ok (.int (operation a b)) := by
  unfold ringOperation? at h
  split at h
  · next hplus =>
      subst hplus
      cases h
      rfl
  split at h
  · next hminus =>
      subst hminus
      cases h
      rfl
  split at h
  · next htimes =>
      subst htimes
      cases h
      rfl
  · cases h

theorem evaluate_fill (h : tree.integer? value = some i) :
    (tree.fill fun name => .int (value name)).evaluate = .ok (.int i) := by
  induction tree generalizing i with
  | number content =>
      obtain rfl := wholeContent?_eq_some h
      rfl
  | name s =>
      cases h
      rfl
  | unary operator operand ih =>
      obtain ⟨rfl, a, ha, rfl⟩ := integer?_unary_eq_some.1 h
      rw [Tree.fill, Tree.evaluate, ih ha]
      rfl
  | binary operator left right ihleft ihright =>
      obtain ⟨operation, a, b, hoperation, ha, hb, rfl⟩ := integer?_binary_eq_some.1 h
      rw [Tree.fill, Tree.evaluate, ihleft ha, ihright hb]
      exact applyBinary_int hoperation a b
  | bare label => cases h

theorem exists_ringOperation_of_additive {kind : Kind} (h : additive? kind = some operator) :
    ∃ operation, ringOperation? operator = some operation := by
  obtain rfl | rfl := additive?_eq_some h
  · exact ⟨_, rfl⟩
  · exact ⟨_, rfl⟩

theorem exists_ringOperation_of_multiplicative {t : Token} (ht : t.isIntegral = true)
    (h : multiplicative? t.kind = some operator) : ∃ operation, ringOperation? operator = some operation := by
  obtain ⟨kind, content, position⟩ := t
  cases kind with
  | times =>
      cases h
      exact ⟨_, rfl⟩
  | divide => cases ht
  | _ => cases h

theorem Derives.exists_integer {p : Phrase} {ts : List Token} (h : Derives p ts tree)
    (hts : ∀ t ∈ ts, t.isIntegral = true) (value : String → Int) : ∃ i, tree.integer? value = some i := by
  have hbinary {ts us : List Token} {t : Token} {left right : Tree} {operator : String}
      (hts : ∀ x ∈ ts ++ t :: us, x.isIntegral = true)
      (hoperation : t.isIntegral = true → ∃ operation, ringOperation? operator = some operation)
      (hleft : (∀ x ∈ ts, x.isIntegral = true) → ∃ a, left.integer? value = some a)
      (hright : (∀ x ∈ us, x.isIntegral = true) → ∃ b, right.integer? value = some b) :
      ∃ i, (Tree.binary operator left right).integer? value = some i := by
    rw [List.forall_mem_append, List.forall_mem_cons] at hts
    obtain ⟨operation, hoperation⟩ := hoperation hts.2.1
    obtain ⟨a, ha⟩ := hleft hts.1
    obtain ⟨b, hb⟩ := hright hts.2.2
    exact ⟨_, integer?_binary_eq_some.2 ⟨operation, a, b, hoperation, ha, hb, rfl⟩⟩
  induction h with
  | product _ ih => exact ih hts
  | factor _ ih => exact ih hts
  | add _ hsign _ ihleft ihright =>
      exact hbinary hts (fun _ => exists_ringOperation_of_additive hsign) ihleft ihright
  | multiply _ hsign _ ihleft ihright =>
      exact hbinary hts (fun ht => exists_ringOperation_of_multiplicative ht hsign)
        ihleft ihright
  | negate _ _ ih =>
      rw [List.forall_mem_cons] at hts
      obtain ⟨a, ha⟩ := ih hts.2
      exact ⟨-a, integer?_unary_eq_some.2 ⟨rfl, a, ha, rfl⟩⟩
  | @number t hkind =>
      have ht := hts t List.mem_cons_self
      rw [Token.isIntegral, hkind] at ht
      exact Option.isSome_iff_exists.1 ht
  | name _ => exact ⟨_, rfl⟩
  | group _ _ _ ih =>
      rw [List.forall_mem_cons, List.forall_mem_append] at hts
      exact ih hts.2.1

variable {position last : Nat} {cs : List Char} {body : List Token}

theorem Lexeme.ne_ending {kind : Kind} {content : Datum} (h : Lexeme kind content cs) :
    kind ≠ .ending := by
  cases h with
  | @sign c kind hc =>
      unfold sign? at hc
      split at hc <;> cases hc <;> simp
  | decimal | whole | name => simp

theorem Cut.bodyOf_eq {left : List Char} (h : Cut position cs body last left) (ending : Int) :
    bodyOf (body ++ [.ending ending]) = body := by
  have hgoes : ∀ t ∈ body, (!t.isEnding) = true := by
    intro t ht
    obtain ⟨start, lexeme, -, -, -, hlexeme, -⟩ := h.places.2 t ht
    simpa [Token.isEnding] using hlexeme.ne_ending
  rw [bodyOf, List.takeWhile_append_of_pos hgoes]
  exact List.append_nil body

theorem cut_of_scanFrom (h : scanFrom position cs = .ok (body ++ [.ending last])) :
    Cut position cs body last [] := by
  obtain ⟨body', last', left, hcut, hleft⟩ := exists_cut position cs
  cases hleft with
  | nil =>
      rw [scanFrom_of_cut hcut] at h
      obtain ⟨rfl, hlast⟩ := List.append_inj' (Except.ok.inj h) rfl
      obtain rfl : last' = last := by
        simp only [Token.ending, List.cons.injEq, Token.mk.injEq, true_and, and_true] at hlast
        omega
      exact hcut
  | strange hc =>
      rw [scanFrom_of_strange hcut hc] at h
      cases h
  | tooLong hlong =>
      rw [scanFrom_of_tooLong hcut hlong] at h
      cases h

theorem namesOf_ending (body : List Token) (ending : Int) :
    namesOf (body ++ [.ending ending]) = namesOf body := by
  rw [namesOf, List.filter_append]
  exact congrArg (List.map _) (List.append_nil _)

/-- A text that is cut into names, whole numerals, parentheses and signs other than that of division, and
that is a sentence, comes to the value of its tree in the ring of whole numbers, if each of its names
stands for a whole number. No size is too large for it. -/
theorem evaluate_integers {source : String} {lookup : String → Option Datum}
    (hcut : Cut 0 source.toList body source.length []) (hbody : ∀ t ∈ body, t.isIntegral = true)
    (htree : Derives .sum body tree)
    (hvalue : ∀ name ∈ namesOf body, lookup name = some (.int (value name))) :
    ∃ i, tree.integer? value = some i ∧ evaluate lookup source = .ok (.int i) := by
  obtain ⟨i, hi⟩ := htree.exists_integer hbody value
  have hscan : scan source = .ok (body ++ [.ending source.length]) := scanFrom_of_cut hcut
  have hnumeric : ∀ name ∈ namesOf (body ++ [.ending source.length]),
      numeric? lookup name = some (.int (value name)) := by
    intro name hname
    rw [namesOf_ending] at hname
    rw [numeric?, hvalue name hname]
    rfl
  have hread : parseTokens source.length (body ++ [.ending source.length]) = .ok tree := by
    rw [parseTokens_eq_ok_iff, hcut.bodyOf_eq]
    exact htree
  refine ⟨i, hi, ?_⟩
  rw [evaluate_of_numeric hscan hnumeric, hread]
  exact evaluate_fill hi

def differences : String := "9007199254740993 - (x - 2) * -3 - 1"

def differencesTokens : List Token :=
  [.number (.int 9007199254740993) 0, ⟨.minus, .text "-", 17⟩, ⟨.opening, .text "(", 19⟩, .name "x" 20,
    ⟨.minus, .text "-", 22⟩, .number (.int 2) 24, ⟨.closing, .text ")", 25⟩, ⟨.times, .text "*", 27⟩,
    ⟨.minus, .text "-", 29⟩, .number (.int 3) 30, ⟨.minus, .text "-", 32⟩, .number (.int 1) 34]

theorem derives_differences (x : Int) : ∃ tree, Derives .sum differencesTokens tree ∧
    tree.integer? (fun _ => x) = some (9007199254740993 - (x - 2) * -3 - 1) := by
  have hgroup := @Derives.group ⟨.opening, .text "(", 19⟩ ⟨.closing, .text ")", 25⟩ _ _ rfl
    (.add (t := ⟨.minus, .text "-", 22⟩) (.product (.factor (.name (t := .name "x" 20) rfl))) rfl
      (.factor (.number (t := .number (.int 2) 24) rfl))) rfl
  have hproduct := Derives.multiply (t := ⟨.times, .text "*", 27⟩) (.factor hgroup) rfl
    (.negate (t := ⟨.minus, .text "-", 29⟩) rfl (.number (t := .number (.int 3) 30) rfl))
  have hdifference := Derives.add (t := ⟨.minus, .text "-", 17⟩)
    (.product (.factor (.number (t := .number (.int 9007199254740993) 0) rfl))) rfl hproduct
  exact ⟨_, .add (t := ⟨.minus, .text "-", 32⟩) hdifference rfl
    (.factor (.number (t := .number (.int 1) 34) rfl)), rfl⟩

theorem evaluate_integers_differences :
    Cut 0 differences.toList differencesTokens differences.length [] ∧
      (∀ t ∈ differencesTokens, t.isIntegral = true) ∧ (∃ tree, Derives .sum differencesTokens tree) ∧
      evaluate (fun _ => some (.int 36893488147419103232)) differences =
        .ok (.int (9007199254740993 - (36893488147419103232 - 2) * -3 - 1)) := by
  have hcut : Cut 0 differences.toList differencesTokens differences.length [] :=
    cut_of_scanFrom (by with_unfolding_all rfl)
  have hbody : ∀ t ∈ differencesTokens, t.isIntegral = true := by decide
  obtain ⟨tree, htree, hvalue⟩ := derives_differences 36893488147419103232
  obtain ⟨i, hi, hevaluate⟩ := evaluate_integers hcut hbody htree (fun _ _ => rfl)
  obtain rfl := Option.some.inj (hvalue.symm.trans hi)
  exact ⟨hcut, hbody, ⟨tree, htree⟩, hevaluate⟩

end Instrument.Expr
