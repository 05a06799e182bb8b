import Instrument.Proofs.Evaluation
import Instrument.Proofs.Recognition
import Instrument.Proofs.Scanning

namespace Instrument.Expr

variable {value : String → Number} {finish : Token} {ts : List Token}

def Tree.fill (value : String → Number) : Tree → Tree
  | number content => number content
  | name s => number (.number (value s))
  | unary operator operand => unary operator (operand.fill value)
  | binary operator left right => binary operator (left.fill value) (right.fill value)
  | bare label => bare label

def ParseError.fill (value : String → Number) (e : ParseError) : ParseError :=
  ⟨e.reason, e.token.withNumber value⟩

def fillRead (value : String → Number) (read : Tree × List Token) : Tree × List Token :=
  (read.1.fill value, read.2.map (Token.withNumber value))

/-- A result with numbers for names: in the tree or in the error, and in what is left over. -/
def fillReading (value : String → Number) : Reading → Reading
  | .ok read => .ok (fillRead value read)
  | .error e => .error (e.fill value)

theorem additive?_withNumber (t : Token) :
    additive? (t.withNumber value).kind = additive? t.kind := by
  by_cases h : t.kind = .name
  · rw [Token.withNumber, if_pos h, h]
    rfl
  · rw [withNumber_other value h]

theorem multiplicative?_withNumber (t : Token) :
    multiplicative? (t.withNumber value).kind = multiplicative? t.kind := by
  by_cases h : t.kind = .name
  · rw [Token.withNumber, if_pos h, h]
    rfl
  · rw [withNumber_other value h]

theorem isEnding_withNumber (t : Token) : (t.withNumber value).isEnding = t.isEnding := by
  by_cases h : t.kind = .name
  · rw [Token.withNumber, if_pos h, Token.isEnding, Token.isEnding, h]
    rfl
  · rw [withNumber_other value h]

theorem position_withNumber (t : Token) : (t.withNumber value).position = t.position := by
  rw [Token.withNumber]
  split <;> rfl

theorem withNumber_of_isEnding {t : Token} (h : t.isEnding = true) : t.withNumber value = t := by
  apply withNumber_other
  rw [Token.isEnding, beq_iff_eq] at h
  rw [h]
  decide

theorem fillReading_bind {x y : Reading} {f g : Tree × List Token → Reading}
    (hx : y = fillReading value x)
    (hf : ∀ read, x = .ok read → g (fillRead value read) = fillReading value (f read)) :
    (y >>= g) = fillReading value (x >>= f) := by
  subst hx
  cases x with
  | error e => rfl
  | ok read => exact hf read rfl

theorem Loops.fill {sign? : Kind → Option String} {part part' : List Token → Reading}
    {loop loop' : Tree → List Token → Reading} (h : Loops sign? part loop)
    (h' : Loops sign? part' loop')
    (hsign : ∀ t : Token, sign? (t.withNumber value).kind = sign? t.kind)
    (hshrinks : ∀ {ts tree rest}, part ts = .ok (tree, rest) → rest.length < ts.length) {n : Nat}
    (hpart : ∀ ts, ts.length < n →
      part' (ts.map (Token.withNumber value)) = fillReading value (part ts)) :
    ∀ left ts, ts.length ≤ n →
      loop' (left.fill value) (ts.map (Token.withNumber value)) = fillReading value (loop left ts) := by
  induction n with
  | zero =>
      intro left ts hts
      rw [List.eq_nil_of_length_eq_zero (Nat.le_zero.1 hts), h.nil, List.map_nil, h'.nil]
      rfl
  | succ n ih =>
      intro left ts hts
      cases ts with
      | nil =>
          rw [h.nil, List.map_nil, h'.nil]
          rfl
      | cons t more =>
          rw [List.map_cons]
          cases hkind : sign? t.kind with
          | none =>
              rw [h.stop hkind, h'.stop ((hsign t).trans hkind)]
              rfl
          | some operator =>
              rw [h.sign hkind, h'.sign ((hsign t).trans hkind)]
              apply fillReading_bind (hpart more hts)
              intro read hread
              have hless := hshrinks hread
              have hpart' : ∀ ts, ts.length < n →
                  part' (ts.map (Token.withNumber value)) = fillReading value (part ts) :=
                fun ts hlt => hpart ts (Nat.lt_succ_of_lt hlt)
              exact ih hpart' (.binary operator left read.1) read.2 (by simp at hts; omega)

theorem closingFrom_fill (finish : Token) (ts : List Token) (tree : Tree) :
    (closingFrom (finish.withNumber value) (ts.map (Token.withNumber value)) >>= fun last =>
        Except.ok (tree.fill value, last)) =
      fillReading value (closingFrom finish ts >>= fun last => .ok (tree, last)) := by
  cases ts with
  | nil => rfl
  | cons t more =>
      have hkind : (t.withNumber value).kind = .closing ↔ t.kind = .closing := by
        by_cases h : t.kind = .name
        · simp [Token.withNumber, h, Token.number]
        · rw [withNumber_other value h]
      rw [List.map_cons, closingFrom_cons, closingFrom_cons]
      by_cases h : t.kind = .closing
      · rw [if_pos h, if_pos (hkind.2 h)]
        rfl
      · rw [if_neg h, if_neg (mt hkind.1 h)]
        rfl

theorem factorFrom_fill_cons {t : Token} {more : List Token}
    (hfactor : factorFrom (finish.withNumber value) (more.map (Token.withNumber value)) =
      fillReading value (factorFrom finish more))
    (hsum : sumFrom (finish.withNumber value) (more.map (Token.withNumber value)) =
      fillReading value (sumFrom finish more)) :
    factorFrom (finish.withNumber value) ((t :: more).map (Token.withNumber value)) =
      fillReading value (factorFrom finish (t :: more)) := by
  rw [List.map_cons]
  by_cases hname : t.kind = .name
  · have hnumber : t.withNumber value = .number (value t.content.shown) t.position := by
      rw [Token.withNumber, if_pos hname]
    rw [factorFrom_name hname, hnumber]
    exact factorFrom_number rfl _ _
  · rw [withNumber_other value hname]
    cases hkind : t.kind with
    | minus =>
        rw [factorFrom_minus hkind, factorFrom_minus hkind]
        apply fillReading_bind hfactor
        intro read _
        rfl
    | number =>
        rw [factorFrom_number hkind, factorFrom_number hkind]
        rfl
    | opening =>
        rw [factorFrom_opening hkind, factorFrom_opening hkind]
        apply fillReading_bind hsum
        intro read _
        exact closingFrom_fill finish read.2 read.1
    | name => exact absurd hkind hname
    | plus | times | divide | closing | ending =>
        have hother : t.kind.beginsFactor = false := by
          rw [hkind]
          rfl
        rw [factorFrom_unexpected hother, factorFrom_unexpected hother, fillReading, ParseError.fill,
          withNumber_other value hname]

theorem factorFrom_and_sumFrom_fill (value : String → Number) (finish : Token) (n : Nat) :
    ∀ ts, ts.length < n →
      factorFrom (finish.withNumber value) (ts.map (Token.withNumber value)) =
        fillReading value (factorFrom finish ts) ∧
      sumFrom (finish.withNumber value) (ts.map (Token.withNumber value)) =
        fillReading value (sumFrom finish ts) := by
  induction n with
  | zero =>
      intro ts hts
      exact absurd hts (Nat.not_lt_zero _)
  | succ n ih =>
      have hfactor : ∀ ts, ts.length < n + 1 →
          factorFrom (finish.withNumber value) (ts.map (Token.withNumber value)) =
            fillReading value (factorFrom finish ts) := by
        intro ts hts
        cases ts with
        | nil =>
            rw [List.map_nil, factorFrom_nil, factorFrom_nil]
            rfl
        | cons t more =>
            obtain ⟨hmore, hsum⟩ := ih more (Nat.lt_of_succ_lt_succ hts)
            exact factorFrom_fill_cons hmore hsum
      have hfactors := (loops_factors finish).fill (loops_factors (finish.withNumber value))
        multiplicative?_withNumber length_lt_of_factorFrom hfactor
      have hproduct : ∀ ts, ts.length < n + 1 →
          productFrom (finish.withNumber value) (ts.map (Token.withNumber value)) =
            fillReading value (productFrom finish ts) := by
        intro ts hts
        rw [productFrom_eq, productFrom_eq]
        apply fillReading_bind (hfactor ts hts)
        intro read hread
        have hless := length_lt_of_factorFrom hread
        exact hfactors read.1 read.2 (by omega)
      have hterms := (loops_terms finish).fill (loops_terms (finish.withNumber value))
        additive?_withNumber length_lt_of_productFrom hproduct
      intro ts hts
      refine ⟨hfactor ts hts, ?_⟩
      rw [sumFrom_eq, sumFrom_eq]
      apply fillReading_bind (hproduct ts hts)
      intro read hread
      have hless := length_lt_of_productFrom hread
      exact hterms read.1 read.2 (by omega)

theorem bodyOf_withNumber (tokens : List Token) :
    bodyOf (tokens.map (Token.withNumber value)) = (bodyOf tokens).map (Token.withNumber value) := by
  rw [bodyOf, bodyOf, List.takeWhile_map]
  congr 2
  funext t
  exact congrArg _ (isEnding_withNumber t)

theorem finishOf_withNumber (length : Nat) (tokens : List Token) :
    finishOf length (tokens.map (Token.withNumber value)) =
      (finishOf length tokens).withNumber value := by
  have hfind : ((fun t : Token => t.isEnding) ∘ Token.withNumber value) = Token.isEnding :=
    funext isEnding_withNumber
  rw [finishOf, finishOf, List.find?_map, hfind]
  cases tokens.find? Token.isEnding with
  | none => exact (withNumber_of_isEnding rfl).symm
  | some t => rfl

theorem parseTokens_withNumber (value : String → Number) (length : Nat) (tokens : List Token) :
    parseTokens length (tokens.map (Token.withNumber value)) =
      match parseTokens length tokens with
      | .ok tree => .ok (tree.fill value)
      | .error e => .error (e.fill value) := by
  obtain ⟨_, hread⟩ := factorFrom_and_sumFrom_fill value (finishOf length tokens) _ (bodyOf tokens)
    (Nat.lt_succ_self _)
  rw [parseTokens_eq, parseTokens_eq, bodyOf_withNumber, finishOf_withNumber, hread]
  by_cases hnil : bodyOf tokens = []
  · have hempty : (Token.ending 0).withNumber value = .ending 0 := withNumber_of_isEnding rfl
    rw [hnil, List.map_nil, if_pos rfl, if_pos rfl]
    simp only [ParseError.fill, hempty]
  · rw [if_neg hnil, if_neg (mt List.map_eq_nil_iff.1 hnil)]
    cases sumFrom (finishOf length tokens) (bodyOf tokens) with
    | error e => rfl
    | ok read =>
        obtain ⟨tree, rest⟩ := read
        cases rest <;> rfl

/-- A result is not that the expression itself has no value. -/
def HasMeaning (result : Except Failure Datum) : Prop := ∀ e, result ≠ .error (.invalid e)

theorem hasMeaning_orOperand (result : Except OperandError Datum) :
    HasMeaning (orOperand result) := by
  intro e h
  cases result <;> cases h

theorem hasMeaning_applyBinary {operator : String}
    (h : operator = "+" ∨ operator = "-" ∨ operator = "*" ∨ operator = "/") (a b : Datum) :
    HasMeaning (applyBinary operator a b) := by
  obtain rfl | rfl | rfl | rfl := h
  · exact hasMeaning_orOperand (a.add b)
  · exact hasMeaning_orOperand (a.sub b)
  · exact hasMeaning_orOperand (a.mul b)
  · exact hasMeaning_orOperand (a.div b)

theorem hasMeaning_unary {operand : Tree} (h : HasMeaning operand.evaluate) :
    HasMeaning (Tree.unary "-" operand).evaluate := by
  rw [Tree.evaluate]
  cases hresult : operand.evaluate with
  | error e =>
      rw [hresult] at h
      exact h
  | ok d => exact hasMeaning_orOperand d.neg

theorem hasMeaning_binary {operator : String} {left right : Tree}
    (hoperator : operator = "+" ∨ operator = "-" ∨ operator = "*" ∨ operator = "/")
    (hleft : HasMeaning left.evaluate) (hright : HasMeaning right.evaluate) :
    HasMeaning (Tree.binary operator left right).evaluate := by
  rw [Tree.evaluate]
  cases hl : left.evaluate with
  | error e =>
      rw [hl] at hleft
      exact hleft
  | ok a =>
      cases hr : right.evaluate with
      | error e =>
          rw [hr] at hright
          exact hright
      | ok b => exact hasMeaning_applyBinary hoperator a b

theorem additive?_eq_some {kind : Kind} {operator : String} (h : additive? kind = some operator) :
    operator = "+" ∨ operator = "-" := by
  cases kind <;> simp_all [additive?]

theorem multiplicative?_eq_some {kind : Kind} {operator : String}
    (h : multiplicative? kind = some operator) : operator = "*" ∨ operator = "/" := by
  cases kind <;> simp_all [multiplicative?]

theorem Derives.hasMeaning_fill {p : Phrase} {tree : Tree} (h : Derives p ts tree)
    (value : String → Number) : HasMeaning (tree.fill value).evaluate := by
  induction h with
  | product _ ih => exact ih
  | factor _ ih => exact ih
  | add _ hsign _ ihleft ihright =>
      exact hasMeaning_binary ((additive?_eq_some hsign).imp_right .inl) ihleft ihright
  | multiply _ hsign _ ihleft ihright =>
      exact hasMeaning_binary (.inr (.inr (multiplicative?_eq_some hsign))) ihleft ihright
  | negate _ _ ih => exact hasMeaning_unary ih
  | number _ => exact fun e h => nomatch h
  | name _ => exact fun e h => nomatch h
  | group _ _ _ ih => exact ih

theorem applyUnary_ne_overlong (operator : String) (a : Datum) (o : Overlong) :
    applyUnary operator a ≠ .error (.escape (.overlong o)) := by
  rw [applyUnary]
  split
  · cases a.neg <;> simp [orOperand, Except.mapError]
  · simp

theorem applyBinary_ne_overlong (operator : String) (a b : Datum) (o : Overlong) :
    applyBinary operator a b ≠ .error (.escape (.overlong o)) := by
  have hne (result : Except OperandError Datum) :
      orOperand result ≠ .error (.escape (.overlong o)) := by
    cases result <;> simp [orOperand, Except.mapError]
  rw [applyBinary]
  split
  · exact hne _
  split
  · exact hne _
  split
  · exact hne _
  split
  · exact hne _
  · simp

/-- Nothing in a tree is read or told of. -/
theorem Tree.evaluate_ne_overlong (tree : Tree) (o : Overlong) :
    tree.evaluate ≠ .error (.escape (.overlong o)) := by
  induction tree with
  | number | name | bare => simp [Tree.evaluate]
  | unary operator operand ih =>
      rw [Tree.evaluate]
      split
      · next e he => exact he ▸ ih
      · exact applyUnary_ne_overlong operator _ o
  | binary operator left right ihleft ihright =>
      rw [Tree.evaluate]
      split
      · next e he => exact he ▸ ihleft
      · split
        · next e he => exact he ▸ ihright
        · exact applyBinary_ne_overlong operator _ _ o

variable {lookup : String → Option Datum} {tokens : List Token} {source : String}

def numeric? (lookup : String → Option Datum) (name : String) : Option Number :=
  (lookup name).bind Datum.toNumber?

def refusal (lookup : String → Option Datum) (name : String) : EvalError :=
  match lookup name with
  | none | some .null => .unknownVariable name
  | some d => .notNumeric name d

theorem numberFor_of_refused {name : String} (h : numeric? lookup name = none) :
    numberFor name (lookup name) = .error
      (if (lookup name).all Datum.isWritable then .fault (refusal lookup name)
        else .overlong .written) := by
  rw [numeric?] at h
  rw [refusal]
  cases hanswer : lookup name with
  | none => rfl
  | some d =>
      rw [hanswer, Option.bind_some] at h
      cases d with
      | null => rfl
      | _ => simp only [numberFor, h, Option.all_some]

def answering (lookup : String → Option Datum) (name : String) : Except Empty (Option Datum) :=
  .ok (lookup name)

theorem gives_answering {name : String} {n : Number} :
    Gives (answering lookup) name n ↔ numeric? lookup name = some n := by
  simp [Gives, answering, numeric?, Option.bind_eq_some_iff]

theorem relates_ok : Relates (m := Id) (n := Except Empty) fun _ x y => y = .ok (Id.run x) where
  pure _ := rfl
  bind := by
    rintro α β x y f g rfl hf
    exact hf x

theorem evaluateM_answering (lookup : String → Option Datum) (source : String) :
    evaluateM (answering lookup) source = .ok (evaluate lookup source) :=
  evaluateM_relates relates_ok (fun _ => rfl) source

theorem numeric_or_refused (lookup : String → Option Datum) (names : List String) :
    (∃ value : String → Number, ∀ name ∈ names, numeric? lookup name = some (value name)) ∨
    ∃ before name after, names = before ++ name :: after ∧
      (∀ other ∈ before, (numeric? lookup other).isSome) ∧ numeric? lookup name = none := by
  cases hfind : names.find? (fun name => (numeric? lookup name).isNone) with
  | none =>
      refine .inl ⟨fun name => (numeric? lookup name).getD default, fun name hname => ?_⟩
      have hsome := List.find?_eq_none.1 hfind name hname
      obtain ⟨n, hn⟩ := Option.ne_none_iff_exists'.1 (mt Option.isNone_iff_eq_none.2 hsome)
      simp only [hn, Option.getD_some]
  | some name =>
      obtain ⟨hnone, before, after, hnames, hbefore⟩ := List.find?_eq_some_iff_append.1 hfind
      refine .inr ⟨before, name, after, hnames, fun other hother => ?_, by simpa using hnone⟩
      simpa [Option.isSome_iff_ne_none] using hbefore other hother

theorem evaluate_of_stop {stop : Stop LexError} (hscan : scan source = .error stop) :
    evaluate lookup source =
      .error (.ofStop (stop.map fun cause => .malformed source (.lexical cause))) := by
  rw [evaluate, evaluateM, hscan]
  rfl

theorem evaluate_of_refused {before after : List String} {name : String}
    (hscan : scan source = .ok tokens) (hnames : namesOf tokens = before ++ name :: after)
    (hbefore : ∀ other ∈ before, (numeric? lookup other).isSome)
    (hname : numeric? lookup name = none) :
    evaluate lookup source = .error (.ofStop
      (if (lookup name).all Datum.isWritable then .fault (refusal lookup name)
        else .overlong .written)) := by
  have hasked : asked (answering lookup) name = .error (.inr
      (if (lookup name).all Datum.isWritable then .fault (refusal lookup name)
        else .overlong .written)) := by
    rw [asked, answering, flat_eq_inr, ← numberFor_of_refused hname]
    rfl
  have hgives : ∀ other ∈ before, ∃ n, Gives (answering lookup) other n := by
    intro other hother
    obtain ⟨n, hn⟩ := Option.isSome_iff_exists.1 (hbefore other hother)
    exact ⟨n, gives_answering.mpr hn⟩
  have hsub := flat_eq_inr.mp (substituteM_eq_error.mpr ⟨_, _, _, hnames, hgives, hasked⟩)
  exact Except.ok.inj ((evaluateM_answering lookup source).symm.trans (evaluateM_of_stop hscan hsub))

theorem evaluate_eq_evaluateTokens (hscan : scan source = .ok tokens)
    (h : ∀ name ∈ namesOf tokens, numeric? lookup name = some (value name)) :
    evaluate lookup source = evaluateTokens source (tokens.map (Token.withNumber value)) := by
  have hgives : ∀ name ∈ namesOf tokens, Gives (answering lookup) name (value name) :=
    fun name hname => gives_answering.mpr (h name hname)
  exact Except.ok.inj
    ((evaluateM_answering lookup source).symm.trans (evaluateM_of_gives hscan hgives))

theorem evaluate_of_numeric (hscan : scan source = .ok tokens)
    (h : ∀ name ∈ namesOf tokens, numeric? lookup name = some (value name)) :
    evaluate lookup source =
      match parseTokens source.length tokens with
      | .ok tree => (tree.fill value).evaluate
      | .error e => .error (.ofStop
          ((e.fill value).stop.map fun cause => .malformed source (.grammatical cause))) := by
  rw [evaluate_eq_evaluateTokens hscan h, evaluateTokens, parseTokens_withNumber]
  cases parseTokens source.length tokens <;> rfl

theorem ofStop_eq_invalid {stop : Stop EvalError} {e : EvalError}
    (h : Failure.ofStop stop = .invalid e) : stop = .fault e := by
  cases stop with
  | fault e' =>
      cases h
      rfl
  | overlong o => cases h

theorem malformed_of_stop {ε : Type} {stop : Stop ε} {f : ε → SyntaxError} {e : EvalError}
    (h : Failure.ofStop (stop.map fun cause => .malformed source (f cause)) = .invalid e) :
    ∃ cause, e = .malformed source cause := by
  cases stop with
  | fault cause =>
      cases h
      exact ⟨_, rfl⟩
  | overlong o => cases h

theorem invalid_of_evaluate {e : EvalError} (h : evaluate lookup source = .error (.invalid e)) :
    (∃ cause, e = .malformed source cause) ∨ (∃ name, e = .unknownVariable name) ∨
      ∃ name d, e = .notNumeric name d := by
  cases hscan : scan source with
  | error stop =>
      rw [evaluate_of_stop hscan] at h
      exact .inl (malformed_of_stop (Except.error.inj h))
  | ok tokens =>
      rcases numeric_or_refused lookup (namesOf tokens) with
        ⟨value, hvalue⟩ | ⟨before, name, after, hnames, hbefore, hname⟩
      · rw [evaluate_of_numeric hscan hvalue] at h
        cases hparse : parseTokens source.length tokens with
        | error cause =>
            rw [hparse] at h
            exact .inl (malformed_of_stop (Except.error.inj h))
        | ok tree =>
            rw [hparse] at h
            exact absurd h ((derives_of_parseTokens hparse).hasMeaning_fill value e)
      · rw [evaluate_of_refused hscan hnames hbefore hname] at h
        have hstop := ofStop_eq_invalid (Except.error.inj h)
        split at hstop
        · cases hstop
          rw [refusal]
          split
          · exact .inr (.inl ⟨_, rfl⟩)
          · exact .inr (.inl ⟨_, rfl⟩)
          · exact .inr (.inr ⟨_, _, rfl⟩)
        · cases hstop

/-- Numbers put in the place of names before the tokens are read give what the tree of the tokens
gives with numbers put in the place of its names.

A text that cannot be cut into tokens fails for that reason; else the first name that stands for no
number fails it, whatever the tokens would be read as; else tokens that form no tree fail at the
token where they do so without numbers; else the value is that of the tree. No other failure of an
expression occurs. Where a numeral is too long to be read, or what is to be told of a failure too long
to be written, the evaluation is given up at that point. -/
theorem evaluate_eq_evaluate_filled (lookup : String → Option Datum) (source : String) :
    (∀ e, scan source = .error (.fault e) →
      evaluate lookup source = .error (.invalid (.malformed source (.lexical e)))) ∧
    (∀ o, scan source = .error (.overlong o) →
      evaluate lookup source = .error (.escape (.overlong o))) ∧
    (∀ tokens before name after, scan source = .ok tokens →
      namesOf tokens = before ++ name :: after →
      (∀ other ∈ before, (numeric? lookup other).isSome) → numeric? lookup name = none →
      ((lookup name).all Datum.isWritable = true →
        evaluate lookup source = .error (.invalid (refusal lookup name))) ∧
      ((lookup name).all Datum.isWritable = false →
        evaluate lookup source = .error (.escape (.overlong .written)))) ∧
    (∀ tokens (value : String → Number), scan source = .ok tokens →
      (∀ name ∈ namesOf tokens, numeric? lookup name = some (value name)) →
      (∀ e, parseTokens source.length tokens = .error e →
        ((e.fill value).isWritable = true →
          ∃ e', e'.reason = e.reason ∧ e'.token.position = e.token.position ∧
            evaluate lookup source = .error (.invalid (.malformed source (.grammatical e')))) ∧
        ((e.fill value).isWritable = false →
          evaluate lookup source = .error (.escape (.overlong .written)))) ∧
      ∀ tree, parseTokens source.length tokens = .ok tree →
        evaluate lookup source = (tree.fill value).evaluate) ∧
    ∀ e, evaluate lookup source = .error (.invalid e) →
      (∃ cause, e = .malformed source cause) ∨ (∃ name, e = .unknownVariable name) ∨
        ∃ name d, e = .notNumeric name d := by
  refine ⟨fun _ => evaluate_of_stop, fun _ => evaluate_of_stop, ?_, ?_, fun _ => invalid_of_evaluate⟩
  · intro tokens before name after hscan hnames hbefore hname
    rw [evaluate_of_refused hscan hnames hbefore hname]
    constructor
    · intro hwritable
      rw [if_pos hwritable]
      rfl
    · intro hlong
      rw [if_neg (by simp [hlong])]
      rfl
  · intro tokens value hscan hvalue
    rw [evaluate_of_numeric hscan hvalue]
    constructor
    · intro e hparse
      rw [hparse]
      constructor
      · intro hwritable
        have hstop : (e.fill value).stop = .fault (e.fill value) := if_pos hwritable
        refine ⟨e.fill value, rfl, position_withNumber e.token, ?_⟩
        simp only [hstop]
        rfl
      · intro hlong
        have hstop : (e.fill value).stop = .overlong .written := if_neg (by simp [hlong])
        simp only [hstop]
        rfl
    · intro tree hparse
      rw [hparse]

/-- Not every text is at fault or comes to what some tree does. -/
theorem long_numeral_not_evaluated :
    ¬ ∀ (lookup : String → Option Datum) (source : String),
      (∃ e, evaluate lookup source = .error (.invalid e)) ∨
        ∃ tree : Tree, evaluate lookup source = tree.evaluate := by
  intro hall
  have hevaluate : evaluate (fun _ => none) (ones (digitLimit + 1)) = _ :=
    evaluate_of_stop (scan_ones (Nat.lt_succ_self digitLimit))
  rcases hall (fun _ => none) (ones (digitLimit + 1)) with ⟨e, h⟩ | ⟨tree, h⟩
  · cases hevaluate.symm.trans h
  · exact tree.evaluate_ne_overlong _ (h.symm.trans hevaluate)

end Instrument.Expr
