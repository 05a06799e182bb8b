import Instrument.Proofs.Resolution

namespace Instrument

abbrev Guards : Type := List (String × Option String)

/-- Resolutions that keep the names being resolved in a state. -/
abbrev Tracking (α : Type) : Type := ExceptT Halt (StateT Guards Noted) α

namespace Tracking

variable {α β : Type} {guards : Guards} {guard : String × Option String}

def plain (x : Resolving α) : Tracking α :=
  ExceptT.mk fun guards => (fun result => (result, guards)) <$> ExceptT.run x

/-- Does one thing where a guard is set. Where it is not, it is set for the time of another one, and
taken away when that is over, by an exception or not. -/
def underGuard (guard : String × Option String) (again x : Tracking α) : Tracking α :=
  ExceptT.mk fun guards =>
    if guard ∈ guards then ExceptT.run again guards
    else do
      let (result, after) ← ExceptT.run x (guard :: guards)
      return (result, after.erase guard)

def evaluate (lookup : String → Tracking (Option Datum)) (source : Datum) :
    Tracking (Except Expr.Failure Datum) :=
  match source with
  | .text s => Expr.evaluateM lookup s
  | d => plain (Resolving.evaluate (fun _ => pure none) d)

/-- Comes to the same as a resolution without a state, and leaves the guards as they are. -/
def Follows (guards : Guards) (x : Tracking α) (y : Resolving α) : Prop :=
  ExceptT.run x guards = (fun result => (result, guards)) <$> ExceptT.run y

theorem follows_plain (x : Resolving α) : Follows guards (plain x) x := rfl

theorem follows_pure (a : α) : Follows guards (pure a) (pure a) := rfl

theorem Follows.bind {x : Tracking α} {y : Resolving α} {f : α → Tracking β} {g : α → Resolving β}
    (hx : Follows guards x y) (hf : ∀ a, Follows guards (f a) (g a)) :
    Follows guards (x >>= f) (y >>= g) := by
  have hnext : ∀ result : Except Halt α, ExceptT.bindCont f result guards =
      (fun result => (result, guards)) <$> ExceptT.bindCont g result := by
    intro result
    cases result with
    | error e => rfl
    | ok a => exact hf a
  change (ExceptT.run x guards >>= fun p => ExceptT.bindCont f p.1 p.2) =
    (fun result => (result, guards)) <$> (ExceptT.run y >>= ExceptT.bindCont g)
  rw [hx, bind_map_left, map_bind]
  exact congrArg _ (funext hnext)

theorem follows_relates (guards : Guards) :
    Expr.Relates (m := Tracking) (n := Resolving) fun _ x y => Follows guards x y where
  pure := follows_pure
  bind := Follows.bind

theorem Follows.underGuard {again x : Tracking α} {again' x' : Resolving α} {p : Prop}
    [Decidable p] (hguard : guard ∈ guards ↔ p) (hagain : Follows guards again again')
    (hx : ¬ p → Follows (guard :: guards) x x') :
    Follows guards (underGuard guard again x) (if p then again' else x') := by
  by_cases hp : p
  · rw [if_pos hp]
    have h : ExceptT.run (Tracking.underGuard guard again x) guards = ExceptT.run again guards :=
      if_pos (hguard.mpr hp)
    exact h.trans hagain
  · rw [if_neg hp]
    have h : ExceptT.run (Tracking.underGuard guard again x) guards =
        ExceptT.run x (guard :: guards) >>= fun p => pure (p.1, p.2.erase guard) :=
      if_neg (mt hguard.mp hp)
    have herase : (guard :: guards).erase guard = guards := List.erase_cons_head ..
    rw [Follows, h, hx hp, bind_map_left]
    simp only [herase]
    exact bind_pure_comp _ _

theorem follows_evaluate {lookup : String → Tracking (Option Datum)}
    {other : String → Resolving (Option Datum)}
    (h : ∀ name, Follows guards (lookup name) (other name)) (source : Datum) :
    Follows guards (evaluate lookup source) (Resolving.evaluate other source) := by
  cases source with
  | text s => exact Expr.evaluateM_relates (follows_relates guards) h s
  | list items => cases items <;> exact follows_plain _
  | record fields => cases fields <;> exact follows_plain _
  | _ => exact follows_plain _

end Tracking

namespace Store

open Relation Tracking

/-- The value of a variable in a scope, the names being resolved held in the state. The depth bounds
how far references are followed. -/
def track (s : Store) (key : Option String) : Nat → String → Tracking (Option Datum)
  | 0, _ => pure none
  | depth + 1, name =>
    let again := plain do
      Resolving.note (.selfReference name)
      return none
    match s.effective? name key with
    | some (.literal .null) => pure none
    | some (.literal d) => pure (some d)
    | some (.variableRef (.text other)) => underGuard (name, key) again (s.track key depth other)
    | some (.variableRef other) => underGuard (name, key) again (plain (Resolving.nameless other))
    | some (.expression source) => underGuard (name, key) again do
      let result ← Tracking.evaluate (s.track key depth) source
      plain (orNothing (.variableFailed name) result)
    | _ => pure none

variable {s : Store} {key : Option String} {busy : List String} {name : String}

theorem track_follows {guards : Guards} {depth : Nat}
    (hguards : ∀ other, (other, key) ∈ guards ↔ other ∈ busy)
    (hdepth : s.remaining key busy < depth) :
    Follows guards (s.track key depth name) (s.resolve key busy name) := by
  induction depth generalizing guards busy name with
  | zero => exact absurd hdepth (Nat.not_lt_zero _)
  | succ depth ih =>
      have hnext : ∀ {v other}, s.effective? name key = some v → name ∉ busy →
          Follows ((name, key) :: guards) (s.track key depth other)
            (s.resolve key (name :: busy) other) := by
        intro v other hvalue hname
        apply ih
        · simp [hguards]
        · have hlt := remaining_cons_lt (mem_namesIn_of_effective? hvalue) hname
          omega
      rw [track, resolve_eq]
      cases hvalue : s.effective? name key with
      | none => exact follows_pure _
      | some v =>
          cases v with
          | componentRef | unresolved => exact follows_pure _
          | literal d => cases d <;> exact follows_pure _
          | variableRef other =>
              cases other with
              | text other =>
                  apply Follows.underGuard (hguards name) (follows_plain _)
                  intro hname
                  exact hnext hvalue hname
              | _ => exact .underGuard (hguards name) (follows_plain _) fun _ => follows_plain _
          | expression source =>
              apply Follows.underGuard (hguards name) (follows_plain _)
              intro hname
              apply Follows.bind (follows_evaluate (fun other => hnext hvalue hname) source)
              intro result
              exact follows_plain _

theorem remaining_nil (s : Store) (key : Option String) :
    s.remaining key [] = (s.namesIn key).length := by
  rw [remaining, List.countP_eq_length]
  intro name _
  rfl

/-- A variable comes to what its name resolves to, and to nothing where that is nothing, unless a
number is too large, or some name that it reaches has no text where one is wanted, or something in its
arithmetic is too long. From a name on the way to a cycle nothing can be resolved; a name that several
others ask for, or one more than once, is resolved each time. Held in a state, the names being resolved
are the same after as before, whatever a resolution comes to, and it goes no deeper than the scope has
names. -/
theorem resolveVariable_sound_and_complete (s : Store) (key : Option String) (name : String) :
    (∀ d, (s.resolveVariable name key).answer = .ok (some d) ↔ s.Resolves key name d) ∧
    (∀ d, s.Resolves key name d → d ≠ .null) ∧
    ((∀ d, ¬ s.Resolves key name d) →
      (s.resolveVariable name key).answer = .ok none ∨
        ∃ e, s.Ends key name e ∧ (s.resolveVariable name key).answer = .error e) ∧
    (∀ other, ReflTransGen (s.Uses key) name other → TransGen (s.Uses key) other other →
      ∀ d, ¬ s.Resolves key name d) ∧
    (∀ (source : String) (tokens : List Expr.Token) (value : String → Datum)
        (number : String → Number) (d : Datum),
      s.effective? name key = some (.expression (.text source)) →
      Expr.scan source = .ok tokens →
      (∀ other ∈ Expr.namesOf tokens,
        (s.resolveVariable other key).answer = .ok (some (value other))) →
      (∀ other ∈ Expr.namesOf tokens, (value other).toNumber? = some (number other)) →
      Expr.evaluateTokens source (tokens.map (Expr.Token.withNumber number)) = .ok d →
      (s.resolveVariable name key).answer = .ok (some d)) ∧
    ∀ (guards : Guards) (depth : Nat), (∀ other, (other, key) ∉ guards) →
      (s.namesIn key).length < depth →
      ExceptT.run (s.track key depth name) guards =
        (fun result => (result, guards)) <$> ExceptT.run (s.resolveVariable name key) := by
  refine ⟨fun _ => resolves_iff, fun _ h => h.ne_null, answer_of_not_resolves, ?_, ?_, ?_⟩
  · intro other hreach hcycle d h
    exact h.not_cyclic hreach hcycle
  · intro source tokens value number d hvalue hscan hanswer hnumber heval
    exact answer_of_shared hvalue hscan hanswer hnumber heval
  · intro guards depth hguards hdepth
    apply track_follows
    · simpa using hguards
    · rw [remaining_nil]
      exact hdepth

def strayValues : Store :=
  let reference : Datum := .record [("type", .text "variable_ref"), ("name", .list [])]
  let arithmetic : Datum := .record [("type", .text "expression"), ("source", .int 5)]
  let first := (Store.empty.addVariable "a" reference .global none .null .null none).store
  (first.addVariable "b" arithmetic .global none .null .null none).store

theorem stray_values_halt :
    (strayValues.resolveVariable "a" none).answer = .error (.unusableName (.list [])) ∧
    (strayValues.resolveVariable "b" none).answer = .error (.unreadableSource (.int 5)) ∧
    ∀ d, ¬ strayValues.Resolves none "a" d ∧ ¬ strayValues.Resolves none "b" d := by
  have ha : (strayValues.resolveVariable "a" none).answer = .error (.unusableName (.list [])) := by
    have hvalue : strayValues.effective? "a" none = some (.variableRef (.list [])) := rfl
    rw [resolveVariable, resolve_eq, hvalue]
    rfl
  have hb : (strayValues.resolveVariable "b" none).answer = .error (.unreadableSource (.int 5)) := by
    have hvalue : strayValues.effective? "b" none = some (.expression (.int 5)) := rfl
    rw [resolveVariable, resolve_eq, hvalue]
    rfl
  refine ⟨ha, hb, ?_⟩
  intro d
  constructor
  · intro h
    rw [resolves_iff.mpr h] at ha
    cases ha
  · intro h
    rw [resolves_iff.mpr h] at hb
    cases hb

end Store

end Instrument
