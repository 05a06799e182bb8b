import Instrument.Proofs.Containment
import Instrument.Proofs.Scanning
import Instrument.Proofs.Substitution
import Mathlib.Data.List.Chain

namespace Instrument

open Text

namespace Expr

def Kind.isOperand : Kind → Bool
  | .number | .name => true
  | _ => false

/-- Not both of two neighbours are operands. -/
def Separate (t u : Token) : Prop := t.kind.isOperand = false ∨ u.kind.isOperand = false

variable {p : Phrase} {ts more : List Token} {tree : Tree} {t u : Token}

theorem not_isOperand_of_additive {kind : Kind} {operator : String} (h : additive? kind = some operator) :
    kind.isOperand = false := by
  cases kind <;> first | rfl | cases h

theorem not_isOperand_of_multiplicative {kind : Kind} {operator : String}
    (h : multiplicative? kind = some operator) : kind.isOperand = false := by
  cases kind <;> first | rfl | cases h

theorem isChain_cons (ht : t.kind.isOperand = false) (h : ts.IsChain Separate) :
    (t :: ts).IsChain Separate := by
  cases ts with
  | nil => exact .singleton t
  | cons u more => exact .cons_cons (.inl ht) h

theorem isChain_around {us : List Token} (hts : ts.IsChain Separate) (ht : t.kind.isOperand = false)
    (hus : us.IsChain Separate) : (ts ++ t :: us).IsChain Separate := by
  refine List.isChain_append.2 ⟨hts, isChain_cons ht hus, ?_⟩
  intro last _ first hfirst
  obtain rfl := Option.some.inj hfirst
  exact .inr ht

theorem Derives.separate (h : Derives p ts tree) : ts.IsChain Separate := by
  induction h with
  | product _ ih => exact ih
  | factor _ ih => exact ih
  | add _ hsign _ ihleft ihright =>
      exact isChain_around ihleft (not_isOperand_of_additive hsign) ihright
  | multiply _ hsign _ ihleft ihright =>
      exact isChain_around ihleft (not_isOperand_of_multiplicative hsign) ihright
  | negate hsign _ ih => exact isChain_cons (by rw [hsign]; rfl) ih
  | number _ => exact .singleton _
  | name _ => exact .singleton _
  | group hleft _ hright ih =>
      exact isChain_cons (by rw [hleft]; rfl) (isChain_around ih (by rw [hright]; rfl) .nil)

theorem Derives.ne_nil (h : Derives p ts tree) : ts ≠ [] := by
  induction h <;> simp_all

theorem Derives.begins (h : Derives p ts tree) : ∀ t, ts.head? = some t → t.kind.beginsFactor = true := by
  induction h with
  | product _ ih => exact ih
  | factor _ ih => exact ih
  | add hleft _ _ ih _ =>
      rw [List.head?_append_of_ne_nil _ hleft.ne_nil]
      exact ih
  | multiply hleft _ _ ih _ =>
      rw [List.head?_append_of_ne_nil _ hleft.ne_nil]
      exact ih
  | negate hkind => simp [hkind, Kind.beginsFactor]
  | number hkind => simp [hkind, Kind.beginsFactor]
  | name hkind => simp [hkind, Kind.beginsFactor]
  | group hkind => simp [hkind, Kind.beginsFactor]

theorem isOperand_withNumber (number : String → Number) (t : Token) :
    (t.withNumber number).kind.isOperand = t.kind.isOperand := by
  rw [Token.withNumber]
  split
  · next hname => rw [hname]; rfl
  · rfl

theorem beginsFactor_withNumber (number : String → Number) (t : Token) :
    (t.withNumber number).kind.beginsFactor = t.kind.beginsFactor := by
  rw [Token.withNumber]
  split
  · next hname => rw [hname]; rfl
  · rfl

theorem separate_of_evaluateTokens {source : String} {tokens : List Token} {number : String → Number}
    {d : Datum} (h : evaluateTokens source (tokens.map (Token.withNumber number)) = .ok d) :
    (bodyOf tokens).IsChain Separate ∧ ∀ t, (bodyOf tokens).head? = some t → t.kind.beginsFactor = true := by
  rw [evaluateTokens] at h
  cases hparse : parseTokens source.length (tokens.map (Token.withNumber number)) with
  | error e =>
      rw [hparse] at h
      cases h
  | ok tree =>
      have hread := derives_of_parseTokens hparse
      rw [bodyOf_withNumber] at hread
      constructor
      · refine ((List.isChain_map _).1 hread.separate).imp ?_
        intro t u htu
        rwa [Separate, isOperand_withNumber, isOperand_withNumber] at htu
      · intro t ht
        have hbegins := hread.begins (t.withNumber number) (by rw [List.head?_map, ht]; rfl)
        rwa [beginsFactor_withNumber] at hbegins

variable {position : Nat} {c : Char} {cs after : List Char} {tokens : List Token}

/-- The part of a text that an operand at its front is read from. -/
inductive Front (cs : List Char) : List Char → Prop
  | numeral {lexeme after : List Char} (h : Number.numeralFront? cs = some (lexeme, after)) : Front cs lexeme
  | name {c : Char} {rest : List Char} (hcs : cs = c :: rest) (hc : isNameStart c = true) :
      Front cs (c :: rest.takeWhile isNameRest)

theorem front_of_scanFrom (hc : isPlain c = true) (h : scanFrom position (c :: cs) = .ok tokens) :
    ∃ t more lexeme after, tokens = t :: more ∧ t.kind.isOperand = true ∧ c :: cs = lexeme ++ after ∧
      Front (c :: cs) lexeme ∧ scanFrom (position + lexeme.length) after = .ok more := by
  rw [scanFrom_plain hc] at h
  split at h
  · next numeral after hfront =>
      split at h
      · cases h
      · obtain ⟨more, hmore, rfl⟩ := cons_map_eq_ok h
        exact ⟨_, more, numeral, after, rfl, rfl, (Number.numeralFront?_append hfront).symm,
          .numeral hfront, hmore⟩
  · split at h
    · next hstart =>
        obtain ⟨more, hmore, rfl⟩ := cons_map_eq_ok h
        refine ⟨_, more, _, _, rfl, rfl, ?_, .name rfl hstart, hmore⟩
        rw [List.cons_append, List.takeWhile_append_dropWhile]
    · cases h

def BeginsPlain (cs : List Char) : Prop := ∃ d rest, stripStart cs = d :: rest ∧ isPlain d = true

theorem beginsPlain_cons (hc : isPlain c = true) (cs : List Char) : BeginsPlain (c :: cs) := by
  refine ⟨c, cs, ?_, hc⟩
  rw [stripStart, List.dropWhile_cons_of_neg (by simp [isBlank_of_isPlain hc])]

theorem exists_scanFrom_stripStart (position : Nat) (cs : List Char) :
    ∃ first, scanFrom position cs = scanFrom first (stripStart cs) := by
  induction cs generalizing position with
  | nil => exact ⟨position, rfl⟩
  | cons c cs ih =>
      cases hc : isBlank c with
      | true =>
          rw [scanFrom_blank hc, stripStart, List.dropWhile_cons_of_pos hc]
          exact ih (position + 1)
      | false =>
          rw [stripStart, List.dropWhile_cons_of_neg (by simp [hc])]
          exact ⟨position, rfl⟩

theorem not_separate_of_scanFrom (hc : isPlain c = true) (h : scanFrom position (c :: cs) = .ok tokens)
    (hnext : ∀ lexeme after, Front (c :: cs) lexeme → c :: cs = lexeme ++ after → BeginsPlain after) :
    ∃ t u more, tokens = t :: u :: more ∧ t.kind.isOperand = true ∧ u.kind.isOperand = true := by
  obtain ⟨t, more, lexeme, after, rfl, ht, happend, hfront, hmore⟩ := front_of_scanFrom hc h
  obtain ⟨d, rest, hafter, hd⟩ := hnext lexeme after hfront happend
  obtain ⟨first, hfirst⟩ := exists_scanFrom_stripStart (position + lexeme.length) after
  rw [hfirst, hafter] at hmore
  obtain ⟨u, others, -, -, rfl, hu, -⟩ := front_of_scanFrom hd hmore
  exact ⟨t, u, others, rfl, ht, hu⟩

theorem not_isEnding_of_isOperand (h : t.kind.isOperand = true) : t.isEnding = false := by
  rw [Token.isEnding]
  cases hkind : t.kind <;> simp_all [Kind.isOperand]

theorem bodyOf_cons (h : t.isEnding = false) (ts : List Token) : bodyOf (t :: ts) = t :: bodyOf ts := by
  rw [bodyOf, bodyOf, List.takeWhile_cons_of_pos (by simp [h])]

theorem not_isChain_of_operands {lead : List Token} (ht : t.kind.isOperand = true)
    (hu : u.kind.isOperand = true) : ¬(lead ++ t :: u :: ts).IsChain Separate := by
  intro h
  have hpair := (List.isChain_append_cons_cons.1 h).2.1
  rcases hpair with hfirst | hsecond
  · rw [ht] at hfirst
    cases hfirst
  · rw [hu] at hsecond
    cases hsecond

end Expr

namespace Store

open Instrument.Expr (Front isPlain BeginsPlain Separate)

variable {s : Store} {key : Option String} {source : String} {v : Value} {d : Datum}

/-- Arithmetic that comes to something is a sentence. -/
theorem Denotes.separate (h : s.Denotes key (.expression (.text source)) d) :
    ∃ tokens, Expr.scan source = .ok tokens ∧ (Expr.bodyOf tokens).IsChain Separate ∧
      ∀ t, (Expr.bodyOf tokens).head? = some t → t.kind.beginsFactor = true := by
  cases h with
  | arithmetic hscan _ heval => exact ⟨_, hscan, Expr.separate_of_evaluateTokens heval⟩

/-- What is given in place of a value is all that can come of it. -/
def ComesToNothing (s : Store) (key : Option String) (v : Value) : Prop :=
  ∀ fallback d, (s.resolveValue v key fallback).answer = .ok d → d = fallback

theorem Denotes.resolveValue_eq (h : s.Denotes key v d) (fallback : Datum) :
    (s.resolveValue v key fallback).answer = .ok d := by
  cases h with
  | literal => rfl
  | component => rfl
  | reference h =>
      refine (answer_orFallback _ _).trans ?_
      rw [resolveNamed, resolves_iff.2 h]
      rfl
  | arithmetic hscan hnumber heval =>
      rw [resolveValue_expression, arithmetic_eq_some.mpr (.arithmetic hscan hnumber heval)]
      rfl

theorem comesToNothing_of_not_denotes (hv : v.IsTextual) (h : ∀ d, ¬s.Denotes key v d) :
    s.ComesToNothing key v := by
  intro fallback d hd
  cases hv with
  | literal d' => exact absurd .literal (h d')
  | componentRef ref => exact absurd .component (h _)
  | unresolved word => exact (Except.ok.inj hd).symm
  | variableRef other =>
      have hanswer := (answer_orFallback (s.resolveVariable other key) fallback).symm.trans hd
      rw [orFallback_eq_ok, resolves_iff, ← denotes_reference] at hanswer
      exact (hanswer.resolve_left (h d)).1
  | expression source =>
      rw [resolveValue_expression, orFallback_eq_ok, arithmetic_eq_some] at hd
      exact (hd.resolve_left (h d)).1

theorem not_denotes_of_plus {cs : List Char} (hsource : source.toList = '+' :: cs) :
    ¬s.Denotes key (.expression (.text source)) d := by
  intro h
  obtain ⟨tokens, hscan, -, hbegins⟩ := h.separate
  have hsign : Expr.sign? '+' = some .plus := rfl
  rw [Expr.scan, hsource, Expr.scanFrom_sign hsign] at hscan
  obtain ⟨more, -, rfl⟩ := Expr.cons_map_eq_ok hscan
  rw [Expr.bodyOf_cons rfl] at hbegins
  cases hbegins _ rfl

theorem not_denotes_of_juxtaposed {lead cs : List Char} {c : Char} (hlead : lead ∈ [[], ['-'], ['(']])
    (hsource : source.toList = lead ++ c :: cs) (hc : isPlain c = true)
    (hnext : ∀ lexeme after, Front (c :: cs) lexeme → c :: cs = lexeme ++ after → BeginsPlain after) :
    ¬s.Denotes key (.expression (.text source)) d := by
  intro h
  obtain ⟨tokens, hscan, hchain, -⟩ := h.separate
  have hfront : ∃ before rest, tokens = before ++ rest ∧ (∀ t ∈ before, t.isEnding = false) ∧
      ∃ position, Expr.scanFrom position (c :: cs) = .ok rest := by
    rw [Expr.scan, hsource] at hscan
    have hsign (sign : Char) {kind : Expr.Kind} (hsign : Expr.sign? sign = some kind) (hkind : kind ≠ .ending)
        (hscan : Expr.scanFrom 0 ([sign] ++ c :: cs) = .ok tokens) :
        ∃ before rest, tokens = before ++ rest ∧ (∀ t ∈ before, t.isEnding = false) ∧
          ∃ position, Expr.scanFrom position (c :: cs) = .ok rest := by
      rw [List.singleton_append, Expr.scanFrom_sign hsign] at hscan
      obtain ⟨rest, hrest, rfl⟩ := Expr.cons_map_eq_ok hscan
      exact ⟨[_], rest, rfl, by simpa [Expr.Token.isEnding] using hkind, _, hrest⟩
    simp only [List.mem_cons, List.not_mem_nil, or_false] at hlead
    rcases hlead with rfl | rfl | rfl
    · exact ⟨[], tokens, rfl, List.forall_mem_nil _, 0, hscan⟩
    · exact hsign '-' rfl (by decide) hscan
    · exact hsign '(' rfl (by decide) hscan
  obtain ⟨before, rest, rfl, hbefore, position, hrest⟩ := hfront
  obtain ⟨t, u, more, rfl, ht, hu⟩ := Expr.not_separate_of_scanFrom hc hrest hnext
  have hbody : Expr.bodyOf (before ++ t :: u :: more) = before ++ t :: u :: Expr.bodyOf more := by
    rw [Expr.bodyOf, List.takeWhile_append_of_pos fun x hx => by simp [hbefore x hx]]
    exact congrArg (before ++ ·) ((Expr.bodyOf_cons (Expr.not_isEnding_of_isOperand ht) _).trans
      (congrArg (t :: ·) (Expr.bodyOf_cons (Expr.not_isEnding_of_isOperand hu) _)))
  rw [hbody] at hchain
  exact Expr.not_isChain_of_operands ht hu hchain

end Store

end Instrument
