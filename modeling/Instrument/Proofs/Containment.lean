import Instrument.Proofs.Overflow
import Instrument.Proofs.Resolution

namespace Instrument

inductive Value.IsTextual : Value → Prop
  | literal (d : Datum) : IsTextual (.literal d)
  | variableRef (name : String) : IsTextual (.variableRef (.text name))
  | componentRef (ref : ComponentRef) : IsTextual (.componentRef ref)
  | expression (source : String) : IsTextual (.expression (.text source))
  | unresolved (word : Datum) : IsTextual (.unresolved word)

namespace Store

open Relation
open Instrument.Expr (namesOf)

def IsNumber (s : Store) (key : Option String) (name : String) (n : Number) : Prop :=
  ∃ d, s.Resolves key name d ∧ d.toNumber? = some n

/-- What a value comes to in a scope. -/
inductive Denotes (s : Store) (key : Option String) : Value → Datum → Prop
  | literal {d} : Denotes s key (.literal d) d
  | component {ref} : Denotes s key (.componentRef ref) (.value (.componentRef ref))
  | reference {other d} (h : s.Resolves key other d) :
      Denotes s key (.variableRef (.text other)) d
  | arithmetic {source tokens d} {number : String → Number} (hscan : Expr.scan source = .ok tokens)
      (hnumber : ∀ other ∈ namesOf tokens, s.IsNumber key other (number other))
      (heval : Expr.evaluateTokens source (tokens.map (Expr.Token.withNumber number)) = .ok d) :
      Denotes s key (.expression (.text source)) d

/-- The last name that a value asks for: the one it refers to, and the first in its arithmetic that
comes to no number. -/
inductive EndsAt (s : Store) (key : Option String) : Value → String → Prop
  | reference {other} : EndsAt s key (.variableRef (.text other)) other
  | arithmetic {source tokens before other after} (hscan : Expr.scan source = .ok tokens)
      (hnames : namesOf tokens = before ++ other :: after)
      (hbefore : ∀ earlier ∈ before, ∃ n, s.IsNumber key earlier n)
      (hother : ∀ n, ¬ s.IsNumber key other n) : EndsAt s key (.expression (.text source)) other

/-- What a value exceeds: by its own arithmetic, by a numeral in it or by the datum under the first of
its names that is no number, which is too long, or by what the last name it asks for exceeds. -/
inductive Exceeds (s : Store) (key : Option String) : Value → Expr.Escape → Prop
  | here {source tokens x} {number : String → Number} (hscan : Expr.scan source = .ok tokens)
      (hnumber : ∀ other ∈ namesOf tokens, s.IsNumber key other (number other))
      (h : Expr.Exceeds source number x) : Exceeds s key (.expression (.text source)) x
  | numeral {source o} (hscan : Expr.scan source = .error (.overlong o)) :
      Exceeds s key (.expression (.text source)) (.overlong o)
  | datum {source tokens before other after d} (hscan : Expr.scan source = .ok tokens)
      (hnames : namesOf tokens = before ++ other :: after)
      (hbefore : ∀ earlier ∈ before, ∃ n, s.IsNumber key earlier n) (hother : s.Resolves key other d)
      (hnumber : d.toNumber? = none) (hd : d.isWritable = false) :
      Exceeds s key (.expression (.text source)) (.overlong .written)
  | behind {v w other x} (hend : s.EndsAt key v other) (hvalue : s.effective? other key = some w)
      (h : Exceeds s key w x) : Exceeds s key v x

variable {s : Store} {key : Option String} {busy : List String} {name other : String}
  {v w : Value} {d : Datum} {x : Expr.Escape}

theorem Resolves.unique {d' : Datum} (h : s.Resolves key name d) (h' : s.Resolves key name d') :
    d = d' := by
  have hsame := (resolves_iff.mpr h).symm.trans (resolves_iff.mpr h')
  cases hsame
  rfl

theorem IsNumber.unique {m n : Number} (hm : s.IsNumber key name m) (hn : s.IsNumber key name n) :
    m = n := by
  obtain ⟨d, hd, hm⟩ := hm
  obtain ⟨d', hd', hn⟩ := hn
  obtain rfl := hd.unique hd'
  exact Option.some.inj (hm.symm.trans hn)

theorem Resolves.not_isNumber (h : s.Resolves key name d) (hd : d.toNumber? = none) (n : Number) :
    ¬ s.IsNumber key name n := by
  rintro ⟨d', hd', hn⟩
  obtain rfl := h.unique hd'
  cases hd.symm.trans hn

open Classical in
theorem find?_of_split {tokens : List Expr.Token} {before after : List String}
    (hnames : namesOf tokens = before ++ name :: after)
    (hbefore : ∀ earlier ∈ before, ∃ n, s.IsNumber key earlier n)
    (hname : ∀ n, ¬ s.IsNumber key name n) :
    (namesOf tokens).find? (fun other => decide (∀ n, ¬ s.IsNumber key other n)) = some name := by
  rw [List.find?_eq_some_iff_append]
  refine ⟨decide_eq_true hname, before, after, hnames, ?_⟩
  intro earlier hearlier
  simpa using hbefore earlier hearlier

theorem EndsAt.unique (h : s.EndsAt key v name) (h' : s.EndsAt key v other) : name = other := by
  cases h with
  | reference =>
      cases h'
      rfl
  | arithmetic hscan hnames hbefore hname =>
      cases h' with
      | arithmetic hscan' hnames' hbefore' hother =>
          obtain rfl := Except.ok.inj (hscan.symm.trans hscan')
          have hfirst := find?_of_split hnames hbefore hname
          exact Option.some.inj (hfirst.symm.trans (find?_of_split hnames' hbefore' hother))

theorem Resolves.denotes (h : s.Resolves key name d) :
    ∃ v, s.effective? name key = some v ∧ s.Denotes key v d := by
  cases h with
  | literal hvalue hd => exact ⟨_, hvalue, .literal⟩
  | reference hvalue h => exact ⟨_, hvalue, .reference h⟩
  | expression hvalue hscan h hnumber heval =>
      refine ⟨_, hvalue, .arithmetic hscan ?_ heval⟩
      intro other hmem
      exact ⟨_, h other hmem, hnumber other hmem⟩

theorem Exceeds.not_denotes (h : s.Exceeds key v x) : ¬ s.Denotes key v d := by
  induction h generalizing d with
  | here hscan hnumber h =>
      intro hdenotes
      cases hdenotes with
      | arithmetic hscan' hnumber' heval =>
          obtain rfl := Except.ok.inj (hscan.symm.trans hscan')
          rw [Expr.map_withNumber_congr fun other hmem =>
            (hnumber' other hmem).unique (hnumber other hmem)] at heval
          rw [(Expr.evaluateTokens_eq_escape hscan).mpr h] at heval
          cases heval
  | numeral hscan =>
      intro hdenotes
      cases hdenotes with
      | arithmetic hscan' _ _ => cases hscan.symm.trans hscan'
  | datum hscan hnames _ hother hnumber _ =>
      intro hdenotes
      cases hdenotes with
      | arithmetic hscan' hnumber' _ =>
          obtain rfl := Except.ok.inj (hscan.symm.trans hscan')
          exact hother.not_isNumber hnumber _ (hnumber' _ (by simp [hnames]))
  | behind hend hvalue _ ih =>
      intro hdenotes
      cases hend with
      | reference =>
          cases hdenotes with
          | reference hother =>
              obtain ⟨w, hw, hdenotes⟩ := hother.denotes
              cases hvalue.symm.trans hw
              exact ih hdenotes
      | arithmetic hscan hnames _ hother =>
          cases hdenotes with
          | arithmetic hscan' hnumber _ =>
              obtain rfl := Except.ok.inj (hscan.symm.trans hscan')
              exact hother _ (hnumber _ (by simp [hnames]))

theorem Exceeds.not_isNumber {n : Number} (hvalue : s.effective? name key = some v)
    (h : s.Exceeds key v x) : ¬ s.IsNumber key name n := by
  rintro ⟨d, hd, -⟩
  obtain ⟨w, hw, hdenotes⟩ := hd.denotes
  cases hvalue.symm.trans hw
  exact h.not_denotes hdenotes

section Asking

variable {ask : String → Except Halt (Option Datum)} {source : String}

theorem exceeds_of_arithmetic (hask : ∀ other d, ask other = .ok (some d) → s.Resolves key other d)
    (herror : ∀ other, ask other = .error (.escape x) →
      ∃ w, s.effective? other key = some w ∧ s.Exceeds key w x)
    (h : Expr.evaluateM ask source >>= settled = .error (.escape x)) :
    s.Exceeds key (.expression (.text source)) x := by
  have hgives : ∀ other n, Expr.Gives ask other n → s.IsNumber key other n := by
    rintro other n ⟨d, hother, hn⟩
    exact ⟨d, hask other d hother, hn⟩
  have hbefore : ∀ before : List String, (∀ earlier ∈ before, ∃ n, Expr.Gives ask earlier n) →
      ∀ earlier ∈ before, ∃ n, s.IsNumber key earlier n :=
    fun before hbefore earlier hearlier => (hbefore earlier hearlier).imp (hgives earlier)
  rcases Expr.bind_eq_error.mp h with heval | ⟨result, heval, hsettled⟩
  · obtain ⟨tokens, before, other, after, hscan, hnames, hfront, hother⟩ :=
      Expr.evaluateM_eq_error.mp heval
    obtain ⟨w, hvalue, hexceeds⟩ := herror other hother
    exact .behind (.arithmetic hscan hnames (hbefore before hfront)
      fun n => hexceeds.not_isNumber hvalue) hvalue hexceeds
  · obtain ⟨cause, rfl, hcause⟩ := settled_eq_error hsettled
    obtain rfl := Halt.escape.inj hcause
    rcases Expr.evaluateM_cases heval with
      ⟨e, he⟩ | ⟨o, he, hlong⟩ | ⟨tokens, number, hscan, hnumber, heval⟩
    · cases he
    · cases he
      cases hlong with
      | numeral hscan => exact .numeral hscan
      | datum hscan hnames hfront hother hnumber hd =>
          exact .datum hscan hnames (hbefore _ hfront) (hask _ _ hother) hnumber hd
    · rw [Expr.evaluateTokens_eq_escape hscan] at heval
      exact .here hscan (fun other hmem => hgives other _ (hnumber other hmem)) heval

theorem arithmetic_of_exceeds {tokens : List Expr.Token} {number : String → Number}
    (hscan : Expr.scan source = .ok tokens)
    (hgives : ∀ other ∈ namesOf tokens, Expr.Gives ask other (number other))
    (h : Expr.Exceeds source number x) :
    Expr.evaluateM ask source >>= settled = .error (.escape x) := by
  rw [Expr.evaluateM_of_gives hscan hgives, (Expr.evaluateTokens_eq_escape hscan).mpr h]
  rfl

theorem arithmetic_of_illegible {o : Overlong} (h : Expr.Illegible ask source o) :
    Expr.evaluateM ask source >>= settled = .error (.escape (.overlong o)) := by
  rw [h.evaluateM_eq]
  rfl

theorem arithmetic_of_asked {tokens : List Expr.Token} {before after : List String} {e : Halt}
    (hscan : Expr.scan source = .ok tokens) (hnames : namesOf tokens = before ++ other :: after)
    (hgives : ∀ earlier ∈ before, ∃ n, Expr.Gives ask earlier n) (hother : ask other = .error e) :
    Expr.evaluateM ask source >>= settled = .error e :=
  Expr.bind_eq_error.mpr
    (.inl (Expr.evaluateM_eq_error.mpr ⟨_, _, _, _, hscan, hnames, hgives, hother⟩))

end Asking

theorem exceeds_of_answer
    (h : (s.resolve key busy name).answer = .error (.escape x)) :
    ∃ v, s.effective? name key = some v ∧ s.Exceeds key v x := by
  -- The induction is on the names of the scope that are not being resolved yet.
  induction busy, name using resolving_induction s key with
  | step busy name ih =>
      have hcomes := comes_resolve s key busy name
      generalize (s.resolve key busy name).answer = answer at h hcomes
      cases hcomes with
      | literal | nothing => cases h
      | untyped huntyped =>
          cases h
          cases huntyped
      | reference hvalue hbusy =>
          obtain ⟨w, hw, hexceeds⟩ := ih _ _ hvalue hbusy h
          exact ⟨_, hvalue, .behind .reference hw hexceeds⟩
      | expression hvalue hbusy =>
          exact ⟨_, hvalue, exceeds_of_arithmetic (fun _ _ => resolves_of_answer)
            (fun other => ih _ other hvalue hbusy) h⟩

def Awaits (s : Store) (key : Option String) (name other : String) : Prop :=
  ∃ v, s.effective? name key = some v ∧ s.EndsAt key v other

theorem Awaits.uses (h : s.Awaits key name other) : s.Uses key name other := by
  obtain ⟨v, hvalue, hend⟩ := h
  cases hend with
  | reference => exact .reference hvalue
  | arithmetic hscan hnames => exact .expression hvalue hscan (by simp [hnames])

theorem Exceeds.acc (hvalue : s.effective? name key = some v) (h : s.Exceeds key v x) :
    Acc (Function.swap (s.Awaits key)) name := by
  induction h generalizing name with
  | here hscan hnumber =>
      constructor
      rintro other ⟨v, hv, hend⟩
      cases hvalue.symm.trans hv
      cases hend with
      | arithmetic hscan' hnames _ hother =>
          obtain rfl := Except.ok.inj (hscan.symm.trans hscan')
          exact absurd (hnumber other (by simp [hnames])) (hother _)
  | numeral hscan =>
      constructor
      rintro other ⟨v, hv, hend⟩
      cases hvalue.symm.trans hv
      cases hend with
      | arithmetic hscan' => cases hscan.symm.trans hscan'
  | datum hscan hnames hbefore hother hnumber _ =>
      constructor
      rintro other' ⟨v, hv, hend⟩
      cases hvalue.symm.trans hv
      obtain rfl := hend.unique (.arithmetic hscan hnames hbefore (hother.not_isNumber hnumber))
      exact Subrelation.accessible Awaits.uses hother.acc
  | behind hend hw _ ih =>
      constructor
      rintro other ⟨v, hv, hend'⟩
      cases hvalue.symm.trans hv
      obtain rfl := hend.unique hend'
      exact ih hw

theorem Exceeds.not_cyclic (hvalue : s.effective? name key = some v) (h : s.Exceeds key v x) :
    ¬ TransGen (s.Awaits key) name name :=
  fun hcycle => irrefl_of_acc (h.acc hvalue).transGen (transGen_swap.mpr hcycle)

theorem not_reach_of_awaits (hbusy : ∀ b ∈ busy, TransGen (s.Awaits key) b name)
    (huses : s.Uses key name other) (h : s.Resolves key other d) :
    ∀ b ∈ name :: busy, ¬ ReflTransGen (s.Uses key) other b := by
  intro b hb hreach
  have hback : ReflTransGen (s.Uses key) b name := by
    rcases List.mem_cons.mp hb with rfl | hb
    · exact .refl
    · exact ((hbusy b hb).lift id fun _ _ => Awaits.uses).to_reflTransGen
  exact h.not_cyclic .refl (.tail' (hreach.trans hback) huses)

theorem gives_of_isNumber (hbusy : ∀ b ∈ busy, TransGen (s.Awaits key) b name)
    (huses : s.Uses key name other) {n : Number} (h : s.IsNumber key other n) :
    Expr.Gives (fun other => (s.resolve key (name :: busy) other).answer) other n := by
  obtain ⟨d, hd, hn⟩ := h
  exact ⟨d, answer_of_resolves hd (not_reach_of_awaits hbusy huses hd), hn⟩

theorem answer_of_exceeds (hvalue : s.effective? name key = some v) (h : s.Exceeds key v x)
    (hbusy : ∀ b ∈ busy, TransGen (s.Awaits key) b name) :
    (s.resolve key busy name).answer = .error (.escape x) := by
  -- All names being resolved wait for this one, and no name that exceeds anything waits for itself.
  have hname : name ∉ busy := fun hmem => h.not_cyclic hvalue (hbusy name hmem)
  induction h generalizing name busy with
  | here hscan hnumber h =>
      have hgives : ∀ other ∈ namesOf _, Expr.Gives _ other _ := fun other hmem =>
        gives_of_isNumber hbusy (.expression hvalue hscan hmem) (hnumber other hmem)
      exact (answer_expression hvalue hname).trans (arithmetic_of_exceeds hscan hgives h)
  | numeral hscan =>
      exact (answer_expression hvalue hname).trans (arithmetic_of_illegible (.numeral hscan))
  | @datum source tokens before other after d hscan hnames hbefore hother hnumber hd =>
      have huses : ∀ asked ∈ namesOf tokens, s.Uses key name asked := fun _ hmem =>
        .expression hvalue hscan hmem
      have hask := answer_of_resolves hother
        (not_reach_of_awaits hbusy (huses other (by simp [hnames])) hother)
      refine (answer_expression hvalue hname).trans
        (arithmetic_of_illegible (.datum hscan hnames ?_ hask hnumber hd))
      intro earlier hearlier
      exact (hbefore earlier hearlier).imp fun n =>
        gives_of_isNumber hbusy (huses earlier (by simp [hnames, hearlier]))
  | @behind v w other o hend hw hother ih =>
      have hbusy' : ∀ b ∈ name :: busy, TransGen (s.Awaits key) b other := by
        intro b hb
        have hlast : s.Awaits key name other := ⟨v, hvalue, hend⟩
        rcases List.mem_cons.mp hb with rfl | hb
        · exact .single hlast
        · exact .tail (hbusy b hb) hlast
      have hanswer := ih hw hbusy' fun hmem => hother.not_cyclic hw (hbusy' other hmem)
      cases hend with
      | reference => exact (answer_reference hvalue hname).trans hanswer
      | arithmetic hscan hnames hbefore =>
          -- The names before it are resolved first, and come to numbers here as anywhere.
          rw [answer_expression hvalue hname]
          apply arithmetic_of_asked hscan hnames _ hanswer
          intro earlier hearlier
          obtain ⟨n, hn⟩ := hbefore earlier hearlier
          exact ⟨n, gives_of_isNumber hbusy (.expression hvalue hscan (by simp [hnames, hearlier])) hn⟩

theorem resolveVariable_eq_escape :
    (s.resolveVariable name key).answer = .error (.escape x) ↔
      ∃ v, s.effective? name key = some v ∧ s.Exceeds key v x := by
  constructor
  · exact exceeds_of_answer
  · rintro ⟨v, hvalue, h⟩
    exact answer_of_exceeds hvalue h (List.forall_mem_nil _)

def IsTextual (s : Store) (key : Option String) : Prop :=
  ∀ name v, s.effective? name key = some v → v.IsTextual

theorem IsTextual.not_untyped (hs : s.IsTextual key) {e : Halt} : ¬ s.Untyped key name e := by
  rintro (⟨hvalue, hpart⟩ | ⟨hvalue, hd⟩)
  · cases hs _ _ hvalue
    cases hpart
  · cases hs _ _ hvalue
    cases hd

theorem IsTextual.escape_of_error (hs : s.IsTextual key) {e : Halt}
    (h : (s.resolveVariable name key).answer = .error e) : ∃ x, e = .escape x := by
  cases ends_of_answer h with
  | overflow o => exact ⟨_, rfl⟩
  | untyped _ huntyped => exact absurd huntyped hs.not_untyped
  | lengthy _ _ => exact ⟨_, rfl⟩

structure Reports (s : Store) (key : Option String) (v : Value)
    (result : Except Halt (Option Datum)) : Prop where
  value : ∀ d, result = .ok (some d) ↔ s.Denotes key v d
  error : ∀ e, result = .error e ↔ ∃ x, e = .escape x ∧ s.Exceeds key v x

theorem Reports.nothing {result : Except Halt (Option Datum)} (h : s.Reports key v result) :
    result = .ok none ↔ (∀ d, ¬ s.Denotes key v d) ∧ ∀ x, ¬ s.Exceeds key v x := by
  constructor
  · rintro rfl
    constructor
    · intro d hd
      cases (h.value d).mpr hd
    · intro o ho
      cases (h.error _).mpr ⟨o, rfl, ho⟩
  · rintro ⟨hdenotes, hexceeds⟩
    rcases result with e | _ | d
    · obtain ⟨o, -, ho⟩ := (h.error e).mp rfl
      exact absurd ho (hexceeds o)
    · rfl
    · exact absurd ((h.value d).mp rfl) (hdenotes d)

theorem denotes_reference :
    s.Denotes key (.variableRef (.text name)) d ↔ s.Resolves key name d := by
  constructor
  · rintro ⟨⟩
    assumption
  · exact .reference

theorem exceeds_reference : s.Exceeds key (.variableRef (.text name)) x ↔
    ∃ v, s.effective? name key = some v ∧ s.Exceeds key v x := by
  constructor
  · intro h
    cases h with
    | behind hend hvalue h =>
        cases hend
        exact ⟨_, hvalue, h⟩
  · rintro ⟨v, hvalue, h⟩
    exact .behind .reference hvalue h

theorem reports_reference (hs : s.IsTextual key) (name : String) :
    s.Reports key (.variableRef (.text name)) (s.resolveVariable name key).answer where
  value d := resolves_iff.trans denotes_reference.symm
  error e := by
    constructor
    · intro h
      obtain ⟨o, rfl⟩ := hs.escape_of_error h
      exact ⟨o, rfl, exceeds_reference.mpr (resolveVariable_eq_escape.mp h)⟩
    · rintro ⟨o, rfl, h⟩
      exact resolveVariable_eq_escape.mpr (exceeds_reference.mp h)

theorem gives_iff_isNumber {n : Number} :
    Expr.Gives (fun other => (s.resolveVariable other key).answer) name n ↔ s.IsNumber key name n :=
  exists_congr fun _ => and_congr_left fun _ => resolves_iff

theorem arithmetic_eq_escape {source : String} :
    Expr.evaluateM (fun other => (s.resolveVariable other key).answer) source >>= settled =
        .error (.escape x) ↔
      s.Exceeds key (.expression (.text source)) x := by
  constructor
  · exact exceeds_of_arithmetic (fun _ _ => resolves_iff.mp)
      fun other => resolveVariable_eq_escape.mp
  · intro h
    cases h with
    | here hscan hnumber h =>
        exact arithmetic_of_exceeds hscan
          (fun other hmem => gives_iff_isNumber.mpr (hnumber other hmem)) h
    | numeral hscan => exact arithmetic_of_illegible (.numeral hscan)
    | datum hscan hnames hbefore hother hnumber hd =>
        apply arithmetic_of_illegible (.datum hscan hnames _ (resolves_iff.mpr hother) hnumber hd)
        exact fun earlier hmem => (hbefore earlier hmem).imp fun n => gives_iff_isNumber.mpr
    | behind hend hvalue h =>
        cases hend with
        | arithmetic hscan hnames hbefore =>
            apply arithmetic_of_asked hscan hnames
            · exact fun earlier hmem => (hbefore earlier hmem).imp fun n => gives_iff_isNumber.mpr
            · exact resolveVariable_eq_escape.mpr ⟨_, hvalue, h⟩

theorem arithmetic_eq_some {source : String} :
    Expr.evaluateM (fun other => (s.resolveVariable other key).answer) source >>= settled =
        .ok (some d) ↔ s.Denotes key (.expression (.text source)) d := by
  constructor
  · intro h
    obtain ⟨result, heval, hsettled⟩ := Expr.bind_eq_ok.mp h
    obtain rfl := settled_eq_some hsettled
    rcases Expr.evaluateM_cases heval with
      ⟨e, he⟩ | ⟨o, he, -⟩ | ⟨tokens, number, hscan, hgives, hd⟩
    · cases he
    · cases he
    · exact .arithmetic hscan (fun other hmem => gives_iff_isNumber.mp (hgives other hmem)) hd
  · intro h
    cases h with
    | arithmetic hscan hnumber heval =>
        have hgives : ∀ other ∈ namesOf _, Expr.Gives _ other _ := fun other hmem =>
          gives_iff_isNumber.mpr (hnumber other hmem)
        rw [Expr.evaluateM_of_gives hscan hgives, heval]
        rfl

theorem IsTextual.escape_of_arithmetic (hs : s.IsTextual key) {source : String} {e : Halt}
    (h : Expr.evaluateM (fun other => (s.resolveVariable other key).answer) source >>= settled =
      .error e) : ∃ x, e = .escape x := by
  rcases Expr.bind_eq_error.mp h with heval | ⟨result, heval, hsettled⟩
  · obtain ⟨tokens, before, other, after, -, -, -, hother⟩ := Expr.evaluateM_eq_error.mp heval
    exact hs.escape_of_error hother
  · obtain ⟨cause, -, rfl⟩ := settled_eq_error hsettled
    exact ⟨cause, rfl⟩

theorem reports_arithmetic (hs : s.IsTextual key) (source : String) :
    s.Reports key (.expression (.text source))
      (Expr.evaluateM (fun other => (s.resolveVariable other key).answer) source >>= settled) where
  value d := arithmetic_eq_some
  error e := by
    constructor
    · intro h
      obtain ⟨o, rfl⟩ := hs.escape_of_arithmetic h
      exact ⟨o, rfl, arithmetic_eq_escape.mp h⟩
    · rintro ⟨o, rfl, h⟩
      exact arithmetic_eq_escape.mpr h

theorem ok_eq_error_iff {result : Option Datum} (hreference : ∀ other, v ≠ .variableRef other)
    (hexpression : ∀ source, v ≠ .expression source) (e : Halt) :
    (Except.ok result : Except Halt (Option Datum)) = .error e ↔
      ∃ x, e = .escape x ∧ s.Exceeds key v x := by
  constructor
  · rintro ⟨⟩
  · rintro ⟨x, -, h⟩
    cases h with
    | here | numeral | datum => exact absurd rfl (hexpression _)
    | behind hend =>
        cases hend with
        | reference => exact absurd rfl (hreference _)
        | arithmetic => exact absurd rfl (hexpression _)

theorem reports_literal (d : Datum) : s.Reports key (.literal d) (.ok (some d)) where
  value d' := by
    constructor
    · rintro ⟨⟩
      exact .literal
    · rintro ⟨⟩
      rfl
  error := ok_eq_error_iff nofun nofun

theorem reports_component (ref : ComponentRef) :
    s.Reports key (.componentRef ref) (.ok (some (.value (.componentRef ref)))) where
  value d := by
    constructor
    · rintro ⟨⟩
      exact .component
    · rintro ⟨⟩
      rfl
  error := ok_eq_error_iff nofun nofun

theorem reports_unresolved (word : Datum) : s.Reports key (.unresolved word) (.ok none) where
  value d := by
    constructor <;> rintro ⟨⟩
  error := ok_eq_error_iff nofun nofun

def orFallback (fallback : Datum) (result : Except Halt (Option Datum)) : Except Halt Datum :=
  result.map (·.getD fallback)

theorem orFallback_eq_error {result : Except Halt (Option Datum)} {fallback : Datum} {e : Halt} :
    orFallback fallback result = .error e ↔ result = .error e := by
  cases result <;> simp [orFallback, Except.map]

theorem orFallback_eq_ok {result : Except Halt (Option Datum)} {fallback : Datum} :
    orFallback fallback result = .ok d ↔
      result = .ok (some d) ∨ d = fallback ∧ result = .ok none := by
  rcases result with e | _ | d' <;> simp [orFallback, Except.map, eq_comm]

theorem answer_orFallback (x : Resolving (Option Datum)) (fallback : Datum) :
    (do return (← x).getD fallback : Resolving Datum).answer = orFallback fallback x.answer := by
  rw [Resolving.answer_bind]
  cases x.answer <;> rfl

theorem resolveValue_expression (source : String) (fallback : Datum) :
    (s.resolveValue (.expression (.text source)) key fallback).answer =
      orFallback fallback
        (Expr.evaluateM (fun other => (s.resolveVariable other key).answer) source
          >>= settled) := by
  have heval : (Resolving.evaluate (s.resolveVariable · key) (.text source)).answer =
      Expr.evaluateM (fun other => (s.resolveVariable other key).answer) source :=
    Expr.evaluateM_relates Resolving.answer_relates (fun _ => rfl) source
  simp only [resolveValue, Resolving.answer_bind, answer_orNothing, heval]
  cases Expr.evaluateM (fun other => (s.resolveVariable other key).answer) source with
  | error e => rfl
  | ok result => rcases result with (e | e) | d <;> rfl

theorem resolveValue_of_exceeds {source : String} (h : s.Exceeds key (.expression (.text source)) x)
    {fallback : Datum} :
    (s.resolveValue (.expression (.text source)) key fallback).answer = .error (.escape x) := by
  rw [resolveValue_expression, arithmetic_eq_escape.mpr h]
  rfl

theorem reports_of_value (hs : s.IsTextual key) (hv : v.IsTextual) :
    ∃ result, s.Reports key v result ∧
      ∀ fallback, (s.resolveValue v key fallback).answer = orFallback fallback result := by
  cases hv with
  | literal d => exact ⟨_, reports_literal d, fun _ => rfl⟩
  | componentRef ref => exact ⟨_, reports_component ref, fun _ => rfl⟩
  | unresolved word => exact ⟨_, reports_unresolved word, fun _ => rfl⟩
  | variableRef other =>
      exact ⟨_, reports_reference hs other, fun _ => answer_orFallback _ _⟩
  | expression source =>
      exact ⟨_, reports_arithmetic hs source, fun _ => resolveValue_expression source _⟩

theorem resolveValue_eq_error (hs : s.IsTextual key) (hv : v.IsTextual) {fallback : Datum}
    {e : Halt} : (s.resolveValue v key fallback).answer = .error e ↔
      ∃ x, e = .escape x ∧ s.Exceeds key v x := by
  obtain ⟨result, hreports, hanswer⟩ := reports_of_value hs hv
  rw [hanswer, orFallback_eq_error, hreports.error]

theorem resolveValue_eq_ok (hs : s.IsTextual key) (hv : v.IsTextual) {fallback : Datum} :
    (s.resolveValue v key fallback).answer = .ok d ↔
      s.Denotes key v d ∨
        d = fallback ∧ (∀ d, ¬ s.Denotes key v d) ∧ ∀ x, ¬ s.Exceeds key v x := by
  obtain ⟨result, hreports, hanswer⟩ := reports_of_value hs hv
  rw [hanswer, orFallback_eq_ok, hreports.value, hreports.nothing]

theorem resolveVariable_eq_error (hs : s.IsTextual key) {e : Halt} :
    (s.resolveVariable name key).answer = .error e ↔
      ∃ x v, e = .escape x ∧ s.effective? name key = some v ∧ s.Exceeds key v x := by
  rw [(reports_reference hs name).error]
  simp only [exceeds_reference, exists_and_left]

theorem resolveVariable_eq_none (hs : s.IsTextual key) :
    (s.resolveVariable name key).answer = .ok none ↔
      (∀ d, ¬ s.Resolves key name d) ∧
        ∀ v x, s.effective? name key = some v → ¬ s.Exceeds key v x := by
  rw [(reports_reference hs name).nothing]
  simp only [denotes_reference, exceeds_reference, not_exists, not_and]
  rw [forall_comm]

/-- With texts for names and sources, resolving a variable or a value ends early exactly where it
exceeds something, by itself or by the last name it asks for; a value that comes to nothing else gives
way to what is given for the lack of it. The arithmetic of a text comes to a number or is at fault,
whatever is looked up for its names, unless something in it is too long, or the names all stand for
numbers and it exceeds something with these; nothing else escapes where a fault counts as no value. -/
theorem faults_contained_unless_exceeding (s : Store) (key : Option String)
    (hs : s.IsTextual key) :
    (∀ name e, (s.resolveVariable name key).answer = .error e ↔
      ∃ x v, e = .escape x ∧ s.effective? name key = some v ∧ s.Exceeds key v x) ∧
    (∀ name d, (s.resolveVariable name key).answer = .ok (some d) ↔ s.Resolves key name d) ∧
    (∀ name, (s.resolveVariable name key).answer = .ok none ↔
      (∀ d, ¬ s.Resolves key name d) ∧
        ∀ v x, s.effective? name key = some v → ¬ s.Exceeds key v x) ∧
    (∀ v fallback e, v.IsTextual →
      ((s.resolveValue v key fallback).answer = .error e ↔
        ∃ x, e = .escape x ∧ s.Exceeds key v x)) ∧
    (∀ v fallback d, v.IsTextual →
      ((s.resolveValue v key fallback).answer = .ok d ↔
        s.Denotes key v d ∨
          d = fallback ∧ (∀ d, ¬ s.Denotes key v d) ∧ ∀ x, ¬ s.Exceeds key v x)) ∧
    (∀ (a : Attribute) fallback, s.resolveAttribute a key fallback =
      match a.value with
      | some v => s.resolveValue v key fallback
      | none => pure fallback) ∧
    ∀ (lookup : String → Option Datum) (source : String),
      Expr.Arithmetical (Expr.evaluate lookup source) ∧
      ∀ e,
        (Expr.evaluate? lookup source = .error e ↔
          Expr.evaluate lookup source = .error (.escape e)) ∧
        (Expr.evaluate lookup source = .error (.escape e) ↔
          (∃ o, e = .overlong o ∧ Expr.Illegible (Expr.answering lookup) source o) ∨
          ∃ tokens, ∃ value : String → Number, Expr.scan source = .ok tokens ∧
            (∀ name ∈ namesOf tokens, Expr.numeric? lookup name = some (value name)) ∧
            Expr.Exceeds source value e) := by
  refine ⟨?_, ?_, ?_, ?_, ?_, ?_, ?_⟩
  · exact fun name e => resolveVariable_eq_error hs
  · exact fun name d => resolves_iff
  · exact fun name => resolveVariable_eq_none hs
  · exact fun v fallback e hv => resolveValue_eq_error hs hv
  · exact fun v fallback d hv => resolveValue_eq_ok hs hv
  · intro a fallback
    rw [resolveAttribute]
    cases a.value <;> rfl
  · intro lookup source
    exact ⟨Expr.arithmetical_evaluate lookup source, fun e =>
      ⟨Expr.evaluate?_eq_error, Expr.evaluate_eq_escape⟩⟩

def giant : Int := 10 ^ 400

def oversized : Store :=
  let half : Datum := .record [("type", .text "expression"), ("source", .text "a / 2")]
  let first := (Store.empty.addVariable "a" (.int giant) .global none .null .null none).store
  (first.addVariable "b" half .global none .null .null none).store

theorem effective?_oversized :
    oversized.effective? "a" none = some (.literal (.int giant)) ∧
      oversized.effective? "b" none = some (.expression (.text "a / 2")) := ⟨rfl, rfl⟩

theorem isTextual_oversized : oversized.IsTextual none := by
  intro name v hvalue
  have hnames : oversized.namesIn none = ["a", "b"] := rfl
  have hmem := mem_namesIn_of_effective? hvalue
  rw [hnames, List.mem_cons, List.mem_singleton] at hmem
  obtain rfl | rfl := hmem
  · cases effective?_oversized.1.symm.trans hvalue
    exact .literal _
  · cases effective?_oversized.2.symm.trans hvalue
    exact .expression _

theorem scan_half : Expr.scan "a / 2" =
    .ok [.name "a" 0, ⟨.divide, .text "/", 2⟩, .number (.int 2) 4, .ending 5] := by
  with_unfolding_all rfl

theorem parse_half (length : Nat) : Expr.parseTokens length
    [.name "a" 0, ⟨.divide, .text "/", 2⟩, .number (.int 2) 4, .ending 5] =
      .ok (.binary "/" (.name "a") (.number (.int 2))) := by
  have hread : Expr.Derives .sum ([.name "a" 0] ++ ⟨.divide, .text "/", 2⟩ :: [.number (.int 2) 4])
      (.binary "/" (.name "a") (.number (.int 2))) :=
    .product (.multiply (.factor (.name rfl)) rfl (.number rfl))
  exact Expr.parseTokens_eq_ok_iff.mpr hread

theorem exceeds_half {value : String → Number} (ha : value "a" = .int giant) :
    Expr.Exceeds "a / 2" value (.operand (.overflow .quotient)) := by
  have hlimit : Binary64.limit * (2 : Int).natAbs ≤ giant.natAbs := by
    decide +kernel
  refine .arithmetic scan_half (parse_half _) (.operation rfl rfl rfl rfl ?_)
  rw [ha]
  exact .quotient (by decide) hlimit

theorem exceeds_oversized :
    oversized.Exceeds none (.expression (.text "a / 2")) (.operand (.overflow .quotient)) := by
  have hnumber : oversized.IsNumber none "a" (.int giant) :=
    ⟨_, .literal effective?_oversized.1 (by simp [Datum.int]), rfl⟩
  have hnumbers : ∀ other ∈ ["a"], oversized.IsNumber none other (.int giant) := by
    simpa using hnumber
  exact .here scan_half hnumbers (exceeds_half rfl)

theorem oversized_ends_early :
    oversized.IsTextual none ∧
    (oversized.resolveVariable "b" none).answer = .error (.escape (.operand (.overflow .quotient))) ∧
    (oversized.resolveValue (.variableRef (.text "c")) none (.int 7)).answer = .ok (.int 7) := by
  obtain ⟨hvariable, -, -, -, hvalue, -⟩ :=
    faults_contained_unless_exceeding oversized none isTextual_oversized
  have hmissing : oversized.effective? "c" none = none := rfl
  refine ⟨isTextual_oversized, ?_, ?_⟩
  · exact (hvariable "b" _).mpr ⟨_, _, rfl, effective?_oversized.2, exceeds_oversized⟩
  · refine (hvalue _ _ _ (.variableRef "c")).mpr (.inr ⟨rfl, ?_, ?_⟩)
    · intro d hd
      obtain ⟨v, hv, -⟩ := (denotes_reference.mp hd).denotes
      rw [hmissing] at hv
      cases hv
    · intro o ho
      obtain ⟨v, hv, -⟩ := exceeds_reference.mp ho
      rw [hmissing] at hv
      cases hv

/-- Half of a number that is too large is no fault that is contained. -/
theorem overflow_not_contained :
    oversized.IsTextual none ∧
    (oversized.resolveVariable "b" none).answer = .error (.escape (.operand (.overflow .quotient))) ∧
    (∀ fallback, (oversized.resolveValue (.expression (.text "a / 2")) none fallback).answer =
      .error (.escape (.operand (.overflow .quotient)))) ∧
    Expr.evaluate? (fun _ => some (.int giant)) "a / 2" =
      .error (.operand (.overflow .quotient)) := by
  refine ⟨isTextual_oversized, ?_, ?_, ?_⟩
  · exact resolveVariable_eq_escape.mpr ⟨_, effective?_oversized.2, exceeds_oversized⟩
  · intro fallback
    apply (resolveValue_eq_error isTextual_oversized (.expression _)).mpr
    exact ⟨_, rfl, exceeds_oversized⟩
  · rw [Expr.evaluate?_eq_error, Expr.evaluate_eq_escape]
    exact .inr ⟨_, _, scan_half, fun _ _ => rfl, exceeds_half rfl⟩

end Store

end Instrument
