import Instrument.Expr.Evaluation
import Instrument.Proofs.Recognition

namespace Instrument.Expr

/-- What arithmetic on numbers comes to: a number, no value, an overflow, or a number that is too long
to be read or to be told of. -/
inductive Arithmetical : Except Failure Datum → Prop
  | number (n : Number) : Arithmetical (.ok (.number n))
  | invalid (e : EvalError) : Arithmetical (.error (.invalid e))
  | overflow (o : Overflow) : Arithmetical (.error (.escape (.operand (.overflow o))))
  | overlong (o : Overlong) : Arithmetical (.error (.escape (.overlong o)))

theorem arithmetical_ofNumber (result : Except Overflow Number) :
    Arithmetical (orOperand (Datum.ofNumber result)) := by
  cases result with
  | ok n => exact .number n
  | error o => exact .overflow o

theorem arithmetical_applyUnary (operator : String) (n : Number) :
    Arithmetical (applyUnary operator (.number n)) := by
  rw [applyUnary]
  split
  · exact .number n.neg
  · exact .invalid _

theorem arithmetical_applyBinary (operator : String) (a b : Number) :
    Arithmetical (applyBinary operator (.number a) (.number b)) := by
  rw [applyBinary]
  split
  · exact arithmetical_ofNumber _
  split
  · exact arithmetical_ofNumber _
  split
  · exact arithmetical_ofNumber _
  split
  · exact arithmetical_ofNumber _
  · exact .invalid _

def Token.IsSound (t : Token) : Prop := t.kind = .number → ∃ n, t.content = .number n

theorem arithmetical_unary {operator : String} {operand : Tree}
    (h : Arithmetical operand.evaluate) :
    Arithmetical (Tree.unary operator operand).evaluate := by
  rw [Tree.evaluate]
  generalize operand.evaluate = result at h ⊢
  cases h with
  | number n => exact arithmetical_applyUnary operator n
  | invalid e => exact .invalid e
  | overflow o => exact .overflow o
  | overlong o => exact .overlong o

theorem arithmetical_binary {operator : String} {left right : Tree}
    (hleft : Arithmetical left.evaluate) (hright : Arithmetical right.evaluate) :
    Arithmetical (Tree.binary operator left right).evaluate := by
  rw [Tree.evaluate]
  generalize left.evaluate = a at hleft ⊢
  generalize right.evaluate = b at hright ⊢
  cases hleft with
  | invalid e => exact .invalid e
  | overflow o => exact .overflow o
  | overlong o => exact .overlong o
  | number x =>
      cases hright with
      | invalid e => exact .invalid e
      | overflow o => exact .overflow o
      | overlong o => exact .overlong o
      | number y => exact arithmetical_applyBinary operator x y

theorem Derives.arithmetical {p : Phrase} {ts : List Token} {tree : Tree}
    (h : Derives p ts tree) (hts : ∀ t ∈ ts, t.IsSound) : Arithmetical tree.evaluate := by
  induction h with
  | product _ ih => exact ih hts
  | factor _ ih => exact ih hts
  | add _ _ _ ihleft ihright =>
      exact arithmetical_binary (ihleft fun t ht => hts t (by simp [ht]))
        (ihright fun t ht => hts t (by simp [ht]))
  | multiply _ _ _ ihleft ihright =>
      exact arithmetical_binary (ihleft fun t ht => hts t (by simp [ht]))
        (ihright fun t ht => hts t (by simp [ht]))
  | negate _ _ ih => exact arithmetical_unary (ih fun t ht => hts t (by simp [ht]))
  | @number t hkind =>
      obtain ⟨n, hn⟩ := hts t (by simp) hkind
      rw [Tree.evaluate, hn]
      exact .number n
  | name _ => exact .invalid _
  | group _ _ _ ih => exact ih fun t ht => hts t (by simp [ht])

theorem arithmetical_ofStop (stop : Stop EvalError) : Arithmetical (.error (.ofStop stop)) := by
  cases stop with
  | fault e => exact .invalid e
  | overlong o => exact .overlong o

theorem arithmetical_evaluateTokens {source : String} {tokens : List Token}
    (h : ∀ t ∈ tokens, t.IsSound) : Arithmetical (evaluateTokens source tokens) := by
  rw [evaluateTokens]
  cases hparse : parseTokens source.length tokens with
  | error e => exact arithmetical_ofStop _
  | ok tree =>
      apply (derives_of_parseTokens hparse).arithmetical
      intro t ht
      exact h t ((List.takeWhile_sublist _).subset ht)

theorem sign?_ne_number {c : Char} {kind : Kind} (h : sign? c = some kind) : kind ≠ .number := by
  unfold sign? at h
  split at h <;> cases h <;> simp

theorem cons_map_eq_ok {ε : Type} {t : Token} {result : Except ε (List Token)} {tokens : List Token}
    (h : (t :: ·) <$> result = .ok tokens) : ∃ rest, result = .ok rest ∧ tokens = t :: rest := by
  cases result with
  | error e => cases h
  | ok rest =>
      cases h
      exact ⟨rest, rfl, rfl⟩

theorem isSound_of_scanFrom {position : Nat} {cs : List Char} {tokens : List Token}
    (h : scanFrom position cs = .ok tokens) : ∀ t ∈ tokens, t.IsSound := by
  have hcons : ∀ {t : Token} {rest : List Token}, t.IsSound → (∀ u ∈ rest, u.IsSound) →
      ∀ u ∈ t :: rest, u.IsSound := fun ht hrest => List.forall_mem_cons.mpr ⟨ht, hrest⟩
  fun_induction scanFrom position cs generalizing tokens with
  | case1 position =>
      cases h
      apply hcons _ (List.forall_mem_nil _)
      intro hkind
      cases hkind
  | case2 position c rest hblank ih => exact ih h
  | case3 position c rest hblank kind hsign ih =>
      obtain ⟨after, hafter, rfl⟩ := cons_map_eq_ok h
      apply hcons _ (ih hafter)
      intro hkind
      exact absurd hkind (sign?_ne_number hsign)
  | case4 => cases h
  | case5 position c rest hblank hsign numeral after hfront n hn ih =>
      obtain ⟨more, hmore, rfl⟩ := cons_map_eq_ok h
      apply hcons _ (ih hmore)
      intro _
      exact ⟨_, rfl⟩
  | case6 position c rest hblank hsign hfront hstart name =>
      rename_i ih
      obtain ⟨more, hmore, rfl⟩ := cons_map_eq_ok h
      apply hcons _ (ih hmore)
      intro hkind
      cases hkind
  | case7 => cases h

def namesOf (tokens : List Token) : List String :=
  (tokens.filter (·.kind == .name)).map (·.content.shown)

def Token.withNumber (number : String → Number) (t : Token) : Token :=
  if t.kind = .name then .number (number t.content.shown) t.position else t

variable (number : String → Number) (content : Datum) (position : Int) (rest : List Token)

@[simp] theorem namesOf_name :
    namesOf (⟨.name, content, position⟩ :: rest) = content.shown :: namesOf rest := rfl

omit rest in
theorem namesOf_other {t : Token} (h : t.kind ≠ .name) (rest : List Token) : namesOf (t :: rest) = namesOf rest := by
  simp [namesOf, h]

theorem withNumber_other {t : Token} (h : t.kind ≠ .name) : t.withNumber number = t := by
  simp [Token.withNumber, h]

theorem Token.IsSound.withNumber {t : Token} (h : t.IsSound) : (t.withNumber number).IsSound := by
  by_cases hkind : t.kind = .name
  · intro _
    rw [Token.withNumber, if_pos hkind]
    exact ⟨_, rfl⟩
  · rw [withNumber_other number hkind]
    exact h

/-- Tokens are read one by one, the names apart from all others. -/
theorem tokens_induction {motive : List Token → Prop} (nil : motive [])
    (name : ∀ content position rest, motive rest → motive (⟨.name, content, position⟩ :: rest))
    (other : ∀ t rest, t.kind ≠ .name → motive rest → motive (t :: rest)) (tokens : List Token) :
    motive tokens := by
  induction tokens with
  | nil => exact nil
  | cons t rest ih =>
      obtain ⟨kind, content, position⟩ := t
      by_cases hkind : kind = .name
      · subst hkind
        exact name content position rest ih
      · exact other _ rest hkind ih

omit content position rest number in
theorem map_withNumber_congr {tokens : List Token} {number other : String → Number}
    (h : ∀ name ∈ namesOf tokens, number name = other name) :
    tokens.map (Token.withNumber number) = tokens.map (Token.withNumber other) := by
  induction tokens using tokens_induction with
  | nil => rfl
  | name content position rest ih =>
      rw [namesOf_name, List.forall_mem_cons] at h
      rw [List.map_cons, List.map_cons, ih h.2]
      simp only [Token.withNumber, if_pos, h.1]
  | other t rest hkind ih =>
      rw [namesOf_other hkind] at h
      rw [List.map_cons, List.map_cons, ih h, withNumber_other _ hkind, withNumber_other _ hkind]

section Relates

variable {m n : Type → Type} [Monad m] [Monad n]

/-- A relation between computations that a single answer and a step of one after the other keep. -/
structure Relates (R : (α : Type) → m α → n α → Prop) : Prop where
  pure : ∀ {α : Type} (a : α), R α (pure a) (pure a)
  bind : ∀ {α β : Type} {x : m α} {y : n α} {f : α → m β} {g : α → n β},
    R α x y → (∀ a, R β (f a) (g a)) → R β (x >>= f) (y >>= g)

theorem substituteM_other {lookup : String → m (Option Datum)} {t : Token} (h : t.kind ≠ .name)
    (rest : List Token) : substituteM lookup (t :: rest) = do
      match ← substituteM lookup rest with
      | .error e => return .error e
      | .ok done => return .ok (t :: done) := by
  obtain ⟨kind, content, position⟩ := t
  cases kind with
  | name => exact absurd rfl h
  | _ => rfl

variable {R : (α : Type) → m α → n α → Prop} {lookup : String → m (Option Datum)}
  {other : String → n (Option Datum)}

theorem substituteM_relates (h : Relates R) (hlookup : ∀ name, R _ (lookup name) (other name))
    (tokens : List Token) : R _ (substituteM lookup tokens) (substituteM other tokens) := by
  induction tokens using tokens_induction with
  | nil => exact h.pure _
  | name content position rest ih =>
      apply h.bind (hlookup _)
      intro answer
      cases numberFor content.shown answer with
      | error e => exact h.pure _
      | ok n =>
          apply h.bind ih
          intro result
          cases result with
          | error e => exact h.pure _
          | ok done => exact h.pure _
  | other t rest hkind ih =>
      rw [substituteM_other hkind, substituteM_other hkind]
      apply h.bind ih
      intro result
      cases result with
      | error e => exact h.pure _
      | ok done => exact h.pure _

theorem evaluateM_relates (h : Relates R) (hlookup : ∀ name, R _ (lookup name) (other name))
    (source : String) : R _ (evaluateM lookup source) (evaluateM other source) := by
  rw [evaluateM, evaluateM]
  cases scan source with
  | error e => exact h.pure _
  | ok tokens =>
      apply h.bind (substituteM_relates h hlookup tokens)
      intro result
      cases result with
      | error e => exact h.pure _
      | ok done => exact h.pure _

end Relates

section Asking

variable {ε : Type} {ask : String → Except ε (Option Datum)} {tokens done : List Token}

def Gives (ask : String → Except ε (Option Datum)) (name : String) (n : Number) : Prop :=
  ∃ d, ask name = .ok (some d) ∧ d.toNumber? = some n

theorem numberFor_eq_ok {name : String} {answer : Option Datum} {n : Number} :
    numberFor name answer = .ok n ↔ ∃ d, answer = some d ∧ d.toNumber? = some n := by
  unfold numberFor
  split
  · simp
  · simp [Datum.toNumber?]
  · rename_i d _
    cases hd : d.toNumber? with
    | none => simp_all
    | some k => simp_all

theorem numberFor_eq_overlong {name : String} {answer : Option Datum} {o : Overlong} :
    numberFor name answer = .error (.overlong o) ↔
      o = .written ∧ ∃ d, answer = some d ∧ d.toNumber? = none ∧ d.isWritable = false := by
  unfold numberFor
  split
  · simp
  · simp [Datum.isWritable]
  · rename_i d _
    cases hd : d.toNumber? with
    | some k => simp [hd]
    | none => cases hwritable : d.isWritable <;> simp [hd, hwritable, eq_comm (a := o)]

theorem bind_eq_ok {α β : Type} {x : Except ε α} {f : α → Except ε β} {b : β} :
    x >>= f = .ok b ↔ ∃ a, x = .ok a ∧ f a = .ok b := by
  cases x <;> simp [bind, Except.bind]

theorem bind_eq_error {α β : Type} {x : Except ε α} {f : α → Except ε β} {e : ε} :
    x >>= f = .error e ↔ x = .error e ∨ ∃ a, x = .ok a ∧ f a = .error e := by
  cases x <;> simp [bind, Except.bind]

/-- A result that may fail in two ways, both told as one. -/
def flat {δ α : Type} : Except ε (Except δ α) → Except (ε ⊕ δ) α
  | .error e => .error (.inl e)
  | .ok (.error e) => .error (.inr e)
  | .ok (.ok a) => .ok a

section

variable {δ α : Type} {x : Except ε (Except δ α)} {a : α}

theorem flat_eq_ok : flat x = .ok a ↔ x = .ok (.ok a) := by
  rcases x with e | e | b <;> simp [flat]

theorem flat_eq_inl {e : ε} : flat x = .error (.inl e) ↔ x = .error e := by
  rcases x with e' | e' | b <;> simp [flat]

theorem flat_eq_inr {e : δ} : flat x = .error (.inr e) ↔ x = .ok (.error e) := by
  rcases x with e' | e' | b <;> simp [flat]

end

def asked (ask : String → Except ε (Option Datum)) (name : String) :
    Except (ε ⊕ Stop EvalError) Number := flat (numberFor name <$> ask name)

theorem gives_iff {name : String} {n : Number} : Gives ask name n ↔ asked ask name = .ok n := by
  rw [asked, flat_eq_ok, Gives]
  rcases ask name with e | answer
  · simp [Functor.map, Except.map]
  · simp [Functor.map, Except.map, numberFor_eq_ok]

theorem asked_eq_overlong {name : String} {o : Overlong} :
    asked ask name = .error (.inr (.overlong o)) ↔
      o = .written ∧ ∃ d, ask name = .ok (some d) ∧ d.toNumber? = none ∧ d.isWritable = false := by
  rw [asked, flat_eq_inr]
  rcases ask name with e | answer
  · simp [Functor.map, Except.map]
  · simp [Functor.map, Except.map, numberFor_eq_overlong]

theorem asked_eq_inl {name : String} {e : ε} : asked ask name = .error (.inl e) ↔ ask name = .error e := by
  rw [asked, flat_eq_inl]
  rcases ask name with e' | answer <;> simp [Functor.map, Except.map]

def numberGiven (ask : String → Except ε (Option Datum)) (name : String) : Number :=
  match ask name with
  | .ok (some d) => d.toNumber?.getD default
  | _ => default

theorem Gives.numberGiven_eq {name : String} {n : Number} (h : Gives ask name n) :
    numberGiven ask name = n := by
  obtain ⟨d, hask, hd⟩ := h
  simp [numberGiven, hask, hd]

theorem flat_substituteM_name {content : Datum} {position : Int} :
    flat (substituteM ask (⟨.name, content, position⟩ :: tokens)) =
      asked ask content.shown >>= fun n =>
        (Token.number n position :: ·) <$> flat (substituteM ask tokens) := by
  rw [substituteM, asked]
  rcases ask content.shown with e | answer
  · rfl
  · simp only [bind, Except.bind, Functor.map, Except.map, pure, Except.pure]
    rcases numberFor content.shown answer with e | n
    · rfl
    · rcases substituteM ask tokens with e | e | more <;> rfl

theorem flat_substituteM_other {t : Token} (h : t.kind ≠ .name) :
    flat (substituteM ask (t :: tokens)) = (t :: ·) <$> flat (substituteM ask tokens) := by
  rw [substituteM_other h]
  rcases substituteM ask tokens with e | e | more <;> rfl

theorem substituteM_eq_ok : flat (substituteM ask tokens) = .ok done ↔
    ∃ number, (∀ name ∈ namesOf tokens, Gives ask name (number name)) ∧
      done = tokens.map (Token.withNumber number) := by
  constructor
  · intro h
    refine ⟨numberGiven ask, ?_⟩
    induction tokens using tokens_induction generalizing done with
    | nil =>
        cases h
        exact ⟨List.forall_mem_nil _, rfl⟩
    | name content position rest ih =>
        rw [flat_substituteM_name] at h
        obtain ⟨n, hn, h⟩ := bind_eq_ok.mp h
        obtain ⟨more, hmore, rfl⟩ := cons_map_eq_ok h
        obtain ⟨hgives, rfl⟩ := ih hmore
        have hname := gives_iff.mpr hn
        obtain rfl := hname.numberGiven_eq
        exact ⟨List.forall_mem_cons.mpr ⟨hname, hgives⟩, rfl⟩
    | other t rest hkind ih =>
        rw [flat_substituteM_other hkind] at h
        obtain ⟨more, hmore, rfl⟩ := cons_map_eq_ok h
        obtain ⟨hgives, rfl⟩ := ih hmore
        rw [namesOf_other hkind, List.map_cons, withNumber_other _ hkind]
        exact ⟨hgives, rfl⟩
  · rintro ⟨number, hgives, rfl⟩
    induction tokens using tokens_induction with
    | nil => rfl
    | name content position rest ih =>
        rw [namesOf_name, List.forall_mem_cons] at hgives
        rw [flat_substituteM_name, gives_iff.mp hgives.1, ih hgives.2]
        rfl
    | other t rest hkind ih =>
        rw [namesOf_other hkind] at hgives
        rw [flat_substituteM_other hkind, ih hgives, List.map_cons, withNumber_other _ hkind]
        rfl

theorem cons_map_eq_error {t : Token} {result : Except ε (List Token)} {e : ε} :
    (t :: ·) <$> result = .error e ↔ result = .error e := by
  cases result <;> simp [Functor.map, Except.map]

theorem substituteM_eq_error {e : ε ⊕ Stop EvalError} : flat (substituteM ask tokens) = .error e ↔
    ∃ before name after, namesOf tokens = before ++ name :: after ∧
      (∀ earlier ∈ before, ∃ n, Gives ask earlier n) ∧ asked ask name = .error e := by
  induction tokens using tokens_induction with
  | nil => simp [substituteM, namesOf, flat, pure, Except.pure]
  | name content position rest ih =>
      rw [flat_substituteM_name, bind_eq_error, namesOf_name]
      simp only [cons_map_eq_error, ih]
      constructor
      · rintro (hask | ⟨n, hn, before, name, after, hnames, hbefore, hask⟩)
        · exact ⟨[], _, _, rfl, List.forall_mem_nil _, hask⟩
        · refine ⟨content.shown :: before, name, after, ?_, ?_, hask⟩
          · rw [hnames, List.cons_append]
          · exact List.forall_mem_cons.mpr ⟨⟨n, gives_iff.mpr hn⟩, hbefore⟩
      · rintro ⟨before, name, after, hnames, hbefore, hask⟩
        cases before with
        | nil =>
            rw [List.nil_append, List.cons.injEq] at hnames
            rw [hnames.1]
            exact .inl hask
        | cons first more =>
            rw [List.cons_append, List.cons.injEq] at hnames
            rw [List.forall_mem_cons] at hbefore
            obtain ⟨n, hn⟩ := hbefore.1
            rw [hnames.1]
            exact .inr ⟨n, gives_iff.mp hn, more, name, after, hnames.2, hbefore.2, hask⟩
  | other t rest hkind ih => rw [flat_substituteM_other hkind, cons_map_eq_error, ih, namesOf_other hkind]

variable {source : String} {o : Overlong}

/-- Something in a text is too long before it comes to arithmetic: a numeral to be read, or the datum
under the first name that stands for no number to be shown. -/
inductive Illegible (ask : String → Except ε (Option Datum)) (source : String) : Overlong → Prop
  | numeral {o : Overlong} (hscan : scan source = .error (.overlong o)) : Illegible ask source o
  | datum {tokens : List Token} {before : List String} {name : String} {after : List String}
      {d : Datum} (hscan : scan source = .ok tokens)
      (hnames : namesOf tokens = before ++ name :: after)
      (hbefore : ∀ earlier ∈ before, ∃ n, Gives ask earlier n) (hask : ask name = .ok (some d))
      (hnumber : d.toNumber? = none) (hd : d.isWritable = false) : Illegible ask source .written

theorem evaluateM_of_stop {stop : Stop EvalError} (hscan : scan source = .ok tokens)
    (hsub : substituteM ask tokens = .ok (.error stop)) :
    evaluateM ask source = .ok (.error (.ofStop stop)) := by
  rw [evaluateM, hscan]
  exact bind_eq_ok.mpr ⟨_, hsub, rfl⟩

theorem Illegible.evaluateM_eq (h : Illegible ask source o) :
    evaluateM ask source = .ok (.error (.escape (.overlong o))) := by
  cases h with
  | numeral hscan =>
      rw [evaluateM, hscan]
      rfl
  | datum hscan hnames hbefore hask hnumber hd =>
      have hasked := asked_eq_overlong.mpr ⟨rfl, _, hask, hnumber, hd⟩
      exact evaluateM_of_stop hscan
        (flat_eq_inr.mp (substituteM_eq_error.mpr ⟨_, _, _, hnames, hbefore, hasked⟩))

/-- An evaluation that comes to an end is that of the tokens with the numbers asked for, unless the
expression is at fault or something in it is too long. -/
theorem evaluateM_cases {result : Except Failure Datum} (h : evaluateM ask source = .ok result) :
    (∃ e, result = .error (.invalid e)) ∨
    (∃ o, result = .error (.escape (.overlong o)) ∧ Illegible ask source o) ∨
    ∃ tokens number, scan source = .ok tokens ∧
      (∀ name ∈ namesOf tokens, Gives ask name (number name)) ∧
      evaluateTokens source (tokens.map (Token.withNumber number)) = result := by
  rw [evaluateM] at h
  cases hscan : scan source with
  | error stop =>
      rw [hscan] at h
      cases h
      cases stop with
      | fault e => exact .inl ⟨_, rfl⟩
      | overlong o => exact .inr (.inl ⟨o, rfl, .numeral hscan⟩)
  | ok tokens =>
      rw [hscan] at h
      obtain ⟨substituted, hsub, h⟩ := bind_eq_ok.mp h
      cases substituted with
      | ok done =>
          cases h
          obtain ⟨number, hgives, rfl⟩ := substituteM_eq_ok.mp (flat_eq_ok.mpr hsub)
          exact .inr (.inr ⟨tokens, number, rfl, hgives, rfl⟩)
      | error stop =>
          cases h
          cases stop with
          | fault e => exact .inl ⟨_, rfl⟩
          | overlong o =>
              obtain ⟨before, name, after, hnames, hbefore, hasked⟩ :=
                substituteM_eq_error.mp (flat_eq_inr.mpr hsub)
              obtain ⟨rfl, d, hask, hnumber, hd⟩ := asked_eq_overlong.mp hasked
              exact .inr (.inl ⟨_, rfl, .datum hscan hnames hbefore hask hnumber hd⟩)

theorem evaluateM_of_gives {number : String → Number} (hscan : scan source = .ok tokens)
    (hgives : ∀ name ∈ namesOf tokens, Gives ask name (number name)) :
    evaluateM ask source =
      .ok (evaluateTokens source (tokens.map (Token.withNumber number))) := by
  rw [evaluateM, hscan]
  exact bind_eq_ok.mpr ⟨_, flat_eq_ok.mp (substituteM_eq_ok.mpr ⟨number, hgives, rfl⟩), rfl⟩

theorem evaluateM_eq_error {e : ε} : evaluateM ask source = .error e ↔
    ∃ tokens before name after, scan source = .ok tokens ∧
      namesOf tokens = before ++ name :: after ∧
      (∀ earlier ∈ before, ∃ n, Gives ask earlier n) ∧ ask name = .error e := by
  rw [evaluateM]
  cases hscan : scan source with
  | error e' => simp [pure, Except.pure]
  | ok tokens =>
      have hend : (substituteM ask tokens >>= fun result => match result with
          | .error e => pure (.error (.ofStop e))
          | .ok done => pure (evaluateTokens source done)) = .error e ↔
          substituteM ask tokens = .error e := by
        rcases substituteM ask tokens with e' | ⟨e' | done⟩ <;>
          simp [bind, Except.bind, pure, Except.pure]
      refine hend.trans (flat_eq_inl.symm.trans (substituteM_eq_error.trans ?_))
      simp [asked_eq_inl]

theorem arithmetical_of_scan (number : String → Number) (hscan : scan source = .ok tokens) :
    Arithmetical (evaluateTokens source (tokens.map (Token.withNumber number))) := by
  apply arithmetical_evaluateTokens
  intro t ht
  obtain ⟨u, hu, rfl⟩ := List.mem_map.mp ht
  exact (isSound_of_scanFrom hscan u hu).withNumber number

theorem arithmetical_of_evaluateM {result : Except Failure Datum}
    (h : evaluateM ask source = .ok result) : Arithmetical result := by
  rcases evaluateM_cases h with ⟨e, rfl⟩ | ⟨o, rfl, -⟩ | ⟨tokens, number, hscan, _, rfl⟩
  · exact .invalid e
  · exact .overlong o
  · exact arithmetical_of_scan number hscan

end Asking

end Instrument.Expr
