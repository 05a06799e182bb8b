import Instrument.Proofs.Evaluation
import Instrument.Store.Resolution
import Mathlib.Logic.Relation
import Mathlib.Tactic.Choose

namespace Instrument

open Relation

theorem Datum.text?_eq_some {d : Datum} {t : String} (h : d.text? = some t) : d = .text t := by
  cases d with
  | text _ => exact congrArg _ (Option.some.inj h)
  | _ => cases h

namespace Resolving

variable {α β : Type}

def answer (x : Resolving α) : Except Halt α := (ExceptT.run x).value

theorem answer_bind (x : Resolving α) (f : α → Resolving β) :
    answer (x >>= f) = answer x >>= fun a => answer (f a) := by
  change (ExceptT.bindCont f (answer x)).value = _
  cases answer x <;> rfl

theorem answer_relates :
    Expr.Relates (m := Resolving) fun α (x : Resolving α) y => answer x = y where
  pure _ := rfl
  bind := by
    intro α β x y f g hx hf
    rw [answer_bind, hx]
    exact congrArg _ (funext hf)

end Resolving

namespace Store

open Instrument.Expr (namesOf Gives)

/-- What the value of a name refers to. -/
inductive Uses (s : Store) (key : Option String) (name : String) : String → Prop
  | reference {other} (hvalue : s.effective? name key = some (.variableRef (.text other))) :
      Uses s key name other
  | expression {other source tokens}
      (hvalue : s.effective? name key = some (.expression (.text source)))
      (hscan : Expr.scan source = .ok tokens) (hmem : other ∈ namesOf tokens) :
      Uses s key name other

/-- The data that a name comes to in a scope. -/
inductive Resolves (s : Store) (key : Option String) : String → Datum → Prop
  | literal {name d} (hvalue : s.effective? name key = some (.literal d)) (hd : d ≠ .null) :
      Resolves s key name d
  | reference {name other d} (hvalue : s.effective? name key = some (.variableRef (.text other)))
      (h : Resolves s key other d) : Resolves s key name d
  | expression {name source tokens d} {value : String → Datum} {number : String → Number}
      (hvalue : s.effective? name key = some (.expression (.text source)))
      (hscan : Expr.scan source = .ok tokens)
      (h : ∀ other ∈ namesOf tokens, Resolves s key other (value other))
      (hnumber : ∀ other ∈ namesOf tokens, (value other).toNumber? = some (number other))
      (heval : Expr.evaluateTokens source (tokens.map (Expr.Token.withNumber number)) = .ok d) :
      Resolves s key name d

/-- A name whose value has something in the place of a name or of a source that is no text. -/
inductive Untyped (s : Store) (key : Option String) (name : String) : Halt → Prop
  | name {d part} (hvalue : s.effective? name key = some (.variableRef d))
      (hpart : d.keyFault? = some part) : Untyped s key name (.unusableName part)
  | source {d} (hvalue : s.effective? name key = some (.expression d)) (hd : d.text? = none) :
      Untyped s key name (.unreadableSource d)

/-- A name whose value is arithmetic with something in it that is too long: a numeral to be read, or a
datum that is no number, or a number in a place where none can be, to be told of. -/
inductive Lengthy (s : Store) (key : Option String) (name : String) : Overlong → Prop
  | numeral {source : String} {o : Overlong}
      (hvalue : s.effective? name key = some (.expression (.text source)))
      (hscan : Expr.scan source = .error (.overlong o)) : Lengthy s key name o
  | datum {source : String} {tokens : List Expr.Token} {other : String} {d : Datum}
      (hvalue : s.effective? name key = some (.expression (.text source)))
      (hscan : Expr.scan source = .ok tokens) (hmem : other ∈ namesOf tokens)
      (h : Resolves s key other d) (hnumber : d.toNumber? = none) (hd : d.isWritable = false) :
      Lengthy s key name .written
  | number {source : String} {tokens : List Expr.Token} {value : String → Datum}
      {number : String → Number} {o : Overlong}
      (hvalue : s.effective? name key = some (.expression (.text source)))
      (hscan : Expr.scan source = .ok tokens)
      (h : ∀ other ∈ namesOf tokens, Resolves s key other (value other))
      (hnumber : ∀ other ∈ namesOf tokens, (value other).toNumber? = some (number other))
      (heval : Expr.evaluateTokens source (tokens.map (Expr.Token.withNumber number)) =
        .error (.escape (.overlong o))) : Lengthy s key name o

variable {s : Store} {key : Option String} {busy : List String} {name other : String} {d : Datum}

def settled : Except Expr.Failure Datum → Except Halt (Option Datum)
  | .ok d => .ok (some d)
  | .error (.invalid _) => .ok none
  | .error (.escape e) => .error (.escape e)

theorem answer_orNothing (note : Expr.EvalError → Note) (result : Except Expr.Failure Datum) :
    (orNothing note result).answer = settled result := by
  rcases result with (e | e) | d <;> rfl

theorem resolve_eq (s : Store) (key : Option String) (busy : List String) (name : String) :
    s.resolve key busy name = match s.effective? name key with
      | some (.literal .null) => pure none
      | some (.literal d) => pure (some d)
      | some (.variableRef (.text other)) =>
        if name ∈ busy then do
          Resolving.note (.selfReference name)
          return none
        else s.resolve key (name :: busy) other
      | some (.variableRef other) =>
        if name ∈ busy then do
          Resolving.note (.selfReference name)
          return none
        else Resolving.nameless other
      | some (.expression source) =>
        if name ∈ busy then do
          Resolving.note (.selfReference name)
          return none
        else do
          let result ← Resolving.evaluate (fun other => s.resolve key (name :: busy) other) source
          orNothing (.variableFailed name) result
      | _ => pure none := by
  rw [resolve]
  split
  case h_1 hv => simp only [hv]
  case h_2 d hd hv =>
      cases d with
      | null => exact absurd rfl hd
      | _ => simp only [hv]
  case h_3 other hv => cases other <;> simp only [hv] <;> rfl
  case h_4 source hv =>
      simp only [hv]
      rfl
  case h_5 hnull hliteral hreference hexpression =>
      split <;> simp_all

theorem answer_literal (hvalue : s.effective? name key = some (.literal d)) (hd : d ≠ .null) :
    (s.resolve key busy name).answer = .ok (some d) := by
  rw [resolve_eq, hvalue]
  cases d with
  | null => exact absurd rfl hd
  | _ => rfl

theorem answer_reference (hvalue : s.effective? name key = some (.variableRef (.text other)))
    (hbusy : name ∉ busy) :
    (s.resolve key busy name).answer = (s.resolve key (name :: busy) other).answer := by
  rw [resolve_eq, hvalue]
  simp only [if_neg hbusy]

theorem answer_expression {source : String}
    (hvalue : s.effective? name key = some (.expression (.text source))) (hbusy : name ∉ busy) :
    (s.resolve key busy name).answer =
      Expr.evaluateM (fun other => (s.resolve key (name :: busy) other).answer) source
        >>= settled := by
  rw [resolve_eq, hvalue]
  simp only [if_neg hbusy, Resolving.answer_bind, answer_orNothing]
  have heval := Expr.evaluateM_relates Resolving.answer_relates
    (fun other => (rfl : (s.resolve key (name :: busy) other).answer = _)) source
  exact congrArg (· >>= settled) heval

/-- Whatever a resolution comes to, it comes to it in one of these ways. -/
inductive Comes (s : Store) (key : Option String) (busy : List String) (name : String) :
    Except Halt (Option Datum) → Prop
  | literal {d : Datum} (hvalue : s.effective? name key = some (.literal d)) (hd : d ≠ .null) :
      Comes s key busy name (.ok (some d))
  | reference {other : String} (hvalue : s.effective? name key = some (.variableRef (.text other)))
      (hbusy : name ∉ busy) : Comes s key busy name (s.resolve key (name :: busy) other).answer
  | expression {source : String} (hvalue : s.effective? name key = some (.expression (.text source)))
      (hbusy : name ∉ busy) :
      Comes s key busy name
        (Expr.evaluateM (fun other => (s.resolve key (name :: busy) other).answer) source
          >>= settled)
  | nothing : Comes s key busy name (.ok none)
  | untyped {h : Halt} (huntyped : s.Untyped key name h) : Comes s key busy name (.error h)

theorem comes_busy (hbusy : name ∈ busy)
    (hvalue : (∃ other, s.effective? name key = some (.variableRef other)) ∨
      ∃ source, s.effective? name key = some (.expression source)) :
    s.Comes key busy name (s.resolve key busy name).answer := by
  have h : s.resolve key busy name = do
      Resolving.note (.selfReference name)
      return none := by
    rw [resolve_eq]
    rcases hvalue with ⟨other, hvalue⟩ | ⟨source, hvalue⟩
    · rw [hvalue]
      cases other <;> simp only [if_pos hbusy]
    · rw [hvalue]
      simp only [if_pos hbusy]
  rw [h]
  exact .nothing

theorem comes_reference {other : Datum} (hbusy : name ∉ busy)
    (hvalue : s.effective? name key = some (.variableRef other)) :
    s.Comes key busy name (s.resolve key busy name).answer := by
  cases htext : other.text? with
  | some other' =>
      obtain rfl := Datum.text?_eq_some htext
      rw [answer_reference hvalue hbusy]
      exact .reference hvalue hbusy
  | none =>
      have h : s.resolve key busy name = Resolving.nameless other := by
        rw [resolve_eq, hvalue]
        cases other with
        | text other => cases htext
        | _ => simp only [if_neg hbusy]
      rw [h, Resolving.nameless]
      cases hpart : other.keyFault? with
      | none => exact .nothing
      | some part => exact .untyped (.name hvalue hpart)

theorem comes_expression {source : Datum} (hbusy : name ∉ busy)
    (hvalue : s.effective? name key = some (.expression source)) :
    s.Comes key busy name (s.resolve key busy name).answer := by
  cases htext : source.text? with
  | some source' =>
      obtain rfl := Datum.text?_eq_some htext
      rw [answer_expression hvalue hbusy]
      exact .expression hvalue hbusy
  | none =>
      rw [resolve_eq, hvalue]
      simp only [if_neg hbusy, Resolving.answer_bind, answer_orNothing]
      have huntyped : s.Untyped key name (.unreadableSource source) := .source hvalue htext
      cases source with
      | text source => cases htext
      | list items =>
          cases items with
          | nil => exact .nothing
          | cons first rest => exact .untyped huntyped
      | record fields =>
          cases fields with
          | nil => exact .nothing
          | cons first rest => exact .untyped huntyped
      | _ => exact .untyped huntyped

theorem comes_resolve (s : Store) (key : Option String) (busy : List String) (name : String) :
    s.Comes key busy name (s.resolve key busy name).answer := by
  cases hvalue : s.effective? name key with
  | none =>
      rw [resolve_eq, hvalue]
      exact .nothing
  | some v =>
      cases v with
      | componentRef | unresolved =>
          rw [resolve_eq, hvalue]
          exact .nothing
      | literal d =>
          by_cases hd : d = .null
          · subst hd
            rw [resolve_eq, hvalue]
            exact .nothing
          · rw [answer_literal hvalue hd]
            exact .literal hvalue hd
      | variableRef other =>
          by_cases hbusy : name ∈ busy
          · exact comes_busy hbusy (.inl ⟨other, hvalue⟩)
          · exact comes_reference hbusy hvalue
      | expression source =>
          by_cases hbusy : name ∈ busy
          · exact comes_busy hbusy (.inr ⟨source, hvalue⟩)
          · exact comes_expression hbusy hvalue

/-- What holds of a name when it holds of all that its value may ask for, with the name itself being
resolved, holds of every name. -/
theorem resolving_induction (s : Store) (key : Option String)
    {motive : List String → String → Prop}
    (step : ∀ busy name, (∀ v other, s.effective? name key = some v → name ∉ busy →
      motive (name :: busy) other) → motive busy name) (busy : List String) (name : String) :
    motive busy name := by
  apply step
  intro v other hvalue hbusy
  exact resolving_induction s key step (name :: busy) other
termination_by s.remaining key busy
decreasing_by exact remaining_cons_lt (mem_namesIn_of_effective? hvalue) hbusy

theorem settled_eq_some {result : Except Expr.Failure Datum} (h : settled result = .ok (some d)) :
    result = .ok d := by
  rcases result with (e | e) | d' <;> cases h
  rfl

theorem settled_eq_error {result : Except Expr.Failure Datum} {e : Halt}
    (h : settled result = .error e) : ∃ cause, result = .error (.escape cause) ∧ e = .escape cause := by
  rcases result with (cause | cause) | d' <;> cases h
  exact ⟨cause, rfl, rfl⟩

theorem exists_resolves {tokens : List Expr.Token} {number : String → Number}
    {ask : String → Except Halt (Option Datum)}
    (hgives : ∀ other ∈ namesOf tokens, Gives ask other (number other))
    (hask : ∀ other d, ask other = .ok (some d) → s.Resolves key other d) :
    ∃ value : String → Datum, (∀ other ∈ namesOf tokens, s.Resolves key other (value other)) ∧
      ∀ other ∈ namesOf tokens, (value other).toNumber? = some (number other) := by
  have hnamed : ∀ other ∈ namesOf tokens, ∃ v, ask other = .ok (some v) ∧
      v.toNumber? = some (number other) := hgives
  choose! value hvalue hnumber using hnamed
  exact ⟨value, fun other hmem => hask other _ (hvalue other hmem), hnumber⟩

theorem resolves_of_answer (h : (s.resolve key busy name).answer = .ok (some d)) :
    s.Resolves key name d := by
  induction busy, name using resolving_induction s key generalizing d with
  | step busy name ih =>
      have hcomes := comes_resolve s key busy name
      generalize (s.resolve key busy name).answer = answer at h hcomes
      cases hcomes with
      | nothing => cases h
      | untyped => cases h
      | literal hvalue hd =>
          cases h
          exact .literal hvalue hd
      | reference hvalue hbusy => exact .reference hvalue (ih _ _ hvalue hbusy h)
      | expression hvalue hbusy =>
          obtain ⟨result, heval, hsettled⟩ := Expr.bind_eq_ok.mp h
          obtain rfl := settled_eq_some hsettled
          rcases Expr.evaluateM_cases heval with
            ⟨e, he⟩ | ⟨o, he, -⟩ | ⟨tokens, number, hscan, hgives, hd⟩
          · cases he
          · cases he
          · obtain ⟨value, hresolves, hnumber⟩ :=
              exists_resolves hgives fun other d => ih _ other hvalue hbusy
            exact .expression hvalue hscan hresolves hnumber hd

theorem lengthy_of_evaluateM {source : String} {ask : String → Except Halt (Option Datum)}
    {cause : Expr.Escape} (hvalue : s.effective? name key = some (.expression (.text source)))
    (hask : ∀ other d, ask other = .ok (some d) → s.Resolves key other d)
    (h : Expr.evaluateM ask source = .ok (.error (.escape cause))) :
    (∃ o, cause = .operand (.overflow o)) ∨ ∃ o, cause = .overlong o ∧ s.Lengthy key name o := by
  have harith := Expr.arithmetical_of_evaluateM h
  rcases Expr.evaluateM_cases h with ⟨e, he⟩ | ⟨o, he, hlong⟩ | ⟨tokens, number, hscan, hgives, heval⟩
  · cases he
  · cases he
    refine .inr ⟨o, rfl, ?_⟩
    cases hlong with
    | numeral hscan => exact .numeral hvalue hscan
    | datum hscan hnames _ hother hnumber hd =>
        exact .datum hvalue hscan (by simp [hnames]) (hask _ _ hother) hnumber hd
  · cases harith with
    | overflow o => exact .inl ⟨o, rfl⟩
    | overlong o =>
        obtain ⟨value, hresolves, hnumber⟩ := exists_resolves hgives hask
        exact .inr ⟨o, rfl, .number hvalue hscan hresolves hnumber heval⟩

/-- What ends the resolution of a name early: an overflow, or what is wrong with a name that it reaches. -/
inductive Ends (s : Store) (key : Option String) (name : String) : Halt → Prop
  | overflow (o : Overflow) : Ends s key name (.escape (.operand (.overflow o)))
  | untyped {other : String} {e : Halt} (hreach : ReflTransGen (s.Uses key) name other)
      (h : s.Untyped key other e) : Ends s key name e
  | lengthy {other : String} {o : Overlong} (hreach : ReflTransGen (s.Uses key) name other)
      (h : s.Lengthy key other o) : Ends s key name (.escape (.overlong o))

theorem Ends.of_uses {e : Halt} (huses : s.Uses key name other) (h : s.Ends key other e) :
    s.Ends key name e := by
  cases h with
  | overflow o => exact .overflow o
  | untyped hreach h => exact .untyped (.head huses hreach) h
  | lengthy hreach h => exact .lengthy (.head huses hreach) h

theorem ends_of_answer {e : Halt} (h : (s.resolve key busy name).answer = .error e) :
    s.Ends key name e := by
  induction busy, name using resolving_induction s key with
  | step busy name ih =>
      have hcomes := comes_resolve s key busy name
      generalize (s.resolve key busy name).answer = answer at h hcomes
      cases hcomes with
      | nothing => cases h
      | literal => cases h
      | untyped huntyped =>
          cases h
          exact .untyped .refl huntyped
      | reference hvalue hbusy => exact (ih _ _ hvalue hbusy h).of_uses (.reference hvalue)
      | expression hvalue hbusy =>
          rcases Expr.bind_eq_error.mp h with heval | ⟨result, heval, hsettled⟩
          · obtain ⟨tokens, before, other, after, hscan, hnames, -, hother⟩ :=
              Expr.evaluateM_eq_error.mp heval
            have hmem : other ∈ namesOf tokens := by simp [hnames]
            exact (ih _ _ hvalue hbusy hother).of_uses (.expression hvalue hscan hmem)
          · obtain ⟨cause, rfl, rfl⟩ := settled_eq_error hsettled
            rcases lengthy_of_evaluateM hvalue (fun _ _ => resolves_of_answer) heval with
              ⟨o, rfl⟩ | ⟨o, rfl, hlengthy⟩
            · exact .overflow o
            · exact .lengthy .refl hlengthy

theorem not_uses_literal (hvalue : s.effective? name key = some (.literal d)) :
    ¬ s.Uses key name other := by
  rintro (hvalue' | ⟨hvalue', _, _⟩) <;> simp_all

theorem uses_reference {target : String}
    (hvalue : s.effective? name key = some (.variableRef (.text target))) :
    s.Uses key name other ↔ other = target := by
  constructor
  · rintro (hvalue' | ⟨hvalue', _, _⟩) <;> simp_all
  · rintro rfl
    exact .reference hvalue

theorem uses_expression {source : String} {tokens : List Expr.Token}
    (hvalue : s.effective? name key = some (.expression (.text source)))
    (hscan : Expr.scan source = .ok tokens) : s.Uses key name other ↔ other ∈ namesOf tokens := by
  constructor
  · rintro (hvalue' | ⟨hvalue', _, _⟩) <;> simp_all
  · exact .expression hvalue hscan

theorem Resolves.acc (h : s.Resolves key name d) : Acc (Function.swap (s.Uses key)) name := by
  induction h with
  | literal hvalue hd =>
      constructor
      intro other huses
      exact absurd huses (not_uses_literal hvalue)
  | reference hvalue _ ih =>
      constructor
      intro other huses
      obtain rfl := (uses_reference hvalue).mp huses
      exact ih
  | expression hvalue hscan _ _ _ ih =>
      constructor
      intro other huses
      exact ih other ((uses_expression hvalue hscan).mp huses)

theorem irrefl_of_acc {α : Type} {r : α → α → Prop} {a : α} (h : Acc r a) : ¬ r a a := by
  induction h with
  | intro a _ ih => exact fun haa => ih a haa haa

theorem Resolves.not_cyclic (h : s.Resolves key name d)
    (hreach : ReflTransGen (s.Uses key) name other) : ¬ TransGen (s.Uses key) other other := by
  have hacc : Acc (TransGen (Function.swap (s.Uses key))) other := by
    rcases reflTransGen_iff_eq_or_transGen.mp hreach with rfl | hreach
    · exact h.acc.transGen
    · exact (h.acc.inv_of_transGen (transGen_swap.mpr hreach)).transGen
  intro hcycle
  exact irrefl_of_acc hacc (transGen_swap.mpr hcycle)

/-- Below a name that is on no cycle no name is asked for that is being resolved. -/
theorem not_reach_cons (hcycle : ¬ TransGen (s.Uses key) name name)
    (huses : s.Uses key name other)
    (hbusy : ∀ b ∈ busy, ¬ ReflTransGen (s.Uses key) name b) :
    ∀ b ∈ name :: busy, ¬ ReflTransGen (s.Uses key) other b := by
  intro b hb hreach
  rcases List.mem_cons.mp hb with rfl | hb
  · exact hcycle (.head' huses hreach)
  · exact hbusy b hb (.head huses hreach)

theorem answer_of_resolves (h : s.Resolves key name d)
    (hbusy : ∀ b ∈ busy, ¬ ReflTransGen (s.Uses key) name b) :
    (s.resolve key busy name).answer = .ok (some d) := by
  induction h generalizing busy with
  | literal hvalue hd => exact answer_literal hvalue hd
  | @reference name other d hvalue hother ih =>
      have hname : name ∉ busy := fun hmem => hbusy name hmem .refl
      have hcycle := (Resolves.reference hvalue hother).not_cyclic .refl
      rw [answer_reference hvalue hname]
      exact ih (not_reach_cons hcycle (.reference hvalue) hbusy)
  | @expression name source tokens d value number hvalue hscan hother hnumber heval ih =>
      have hname : name ∉ busy := fun hmem => hbusy name hmem .refl
      have hcycle := (Resolves.expression hvalue hscan hother hnumber heval).not_cyclic .refl
      have hgives : ∀ other ∈ namesOf tokens,
          Gives (fun other => (s.resolve key (name :: busy) other).answer) other (number other) := by
        intro other hmem
        have huses : s.Uses key name other := .expression hvalue hscan hmem
        exact ⟨_, ih other hmem (not_reach_cons hcycle huses hbusy), hnumber other hmem⟩
      rw [answer_expression hvalue hname, Expr.evaluateM_of_gives hscan hgives, heval]
      rfl

theorem resolves_iff : (s.resolveVariable name key).answer = .ok (some d) ↔ s.Resolves key name d :=
  ⟨resolves_of_answer, fun h => answer_of_resolves h (by simp)⟩

theorem answer_of_shared {source : String} {tokens : List Expr.Token} {value : String → Datum}
    {number : String → Number} (hvalue : s.effective? name key = some (.expression (.text source)))
    (hscan : Expr.scan source = .ok tokens)
    (hanswer : ∀ other ∈ namesOf tokens,
      (s.resolveVariable other key).answer = .ok (some (value other)))
    (hnumber : ∀ other ∈ namesOf tokens, (value other).toNumber? = some (number other))
    (heval : Expr.evaluateTokens source (tokens.map (Expr.Token.withNumber number)) = .ok d) :
    (s.resolveVariable name key).answer = .ok (some d) := by
  apply resolves_iff.mpr
  apply Resolves.expression hvalue hscan _ hnumber heval
  intro other hmem
  exact resolves_iff.mp (hanswer other hmem)

theorem answer_of_not_resolves (h : ∀ d, ¬ s.Resolves key name d) :
    (s.resolveVariable name key).answer = .ok none ∨
      ∃ e, s.Ends key name e ∧ (s.resolveVariable name key).answer = .error e := by
  cases hanswer : (s.resolveVariable name key).answer with
  | ok result =>
      cases result with
      | none => exact .inl rfl
      | some d => exact absurd (resolves_iff.mp hanswer) (h d)
  | error e => exact .inr ⟨e, ends_of_answer hanswer, rfl⟩

theorem Resolves.ne_null (h : s.Resolves key name d) : d ≠ .null := by
  induction h with
  | literal _ hd => exact hd
  | reference _ _ ih => exact ih
  | @expression name source tokens d value number _ hscan _ _ heval _ =>
      have harith := Expr.arithmetical_of_scan number hscan
      rw [heval] at harith
      cases harith
      simp

end Store

end Instrument
