import Instrument.Proofs.Recognition
import Mathlib.Data.List.TakeWhile

namespace Instrument.Expr

def Begins (p : Phrase) (front : List Token) : Prop := ∃ more tree, Derives p (front ++ more) tree

variable {p q : Phrase} {front rest ts : List Token} {tree left : Tree} {next : Option Token}

theorem Derives.begins_self (h : Derives p ts tree) : Begins p ts := ⟨[], tree, by simpa using h⟩

theorem begins_group {t : Token} (hopening : t.kind = .opening) (h : Begins .sum front) :
    Begins .factor (t :: front) := by
  obtain ⟨more, tree, h⟩ := h
  exact ⟨more ++ [⟨.closing, .text ")", 0⟩], tree, by simpa using Derives.group hopening h rfl⟩

theorem Stuck.begins (h : Stuck next p front) : Begins p front := by
  induction h with
  | expected _ => exact ⟨[.number (.int 0) 0], _, .number rfl⟩
  | negate hsign _ ih =>
      obtain ⟨more, tree, h⟩ := ih
      exact ⟨more, _, .negate hsign h⟩
  | inside hopening _ ih => exact begins_group hopening ih
  | unclosed hopening h _ _ => exact begins_group hopening h.begins_self
  | factor _ ih =>
      obtain ⟨more, tree, h⟩ := ih
      exact ⟨more, tree, .factor h⟩
  | multiply hleft hsign _ ih =>
      obtain ⟨more, tree, h⟩ := ih
      exact ⟨more, _, by simpa using Derives.multiply hleft hsign h⟩
  | product _ ih =>
      obtain ⟨more, tree, h⟩ := ih
      exact ⟨more, tree, .product h⟩
  | add hleft hsign _ ih =>
      obtain ⟨more, tree, h⟩ := ih
      exact ⟨more, _, by simpa using Derives.add hleft hsign h⟩

theorem EndsBefore.not_begins {t : Token} (hends : EndsBefore (some t) .sum)
    (h : Derives .sum front tree) : ¬Begins .sum (front ++ [t]) := by
  rintro ⟨more, whole, hwhole⟩
  have hhead : EndsBefore (t :: more).head? .sum := hends
  have hread := hhead.sumFrom_eq h t
  have hwhole := hwhole.sumFrom_eq_ok t
  rw [List.append_assoc, List.singleton_append, hread] at hwhole
  cases hwhole

theorem Stuck.not_begins {t : Token} (h : Stuck (some t) .sum front) :
    ¬Begins .sum (front ++ [t]) := by
  rintro ⟨more, whole, hwhole⟩
  have hhead : Stuck (t :: more).head? .sum front := h
  obtain ⟨e, hread, -⟩ := hhead.phraseFrom_eq t
  have hwhole := hwhole.sumFrom_eq_ok t
  rw [List.append_assoc, List.singleton_append] at hwhole
  cases hread.symm.trans hwhole

theorem not_isEnding_of_ne {t : Token} (h : t.kind ≠ .ending) : t.isEnding = false :=
  beq_false_of_ne h

theorem Derives.not_isEnding (h : Derives p ts tree) : ∀ t ∈ ts, t.isEnding = false := by
  induction h with
  | product _ ih | factor _ ih => exact ih
  | @add ts us t _ _ _ _ hsign _ ihleft ihright =>
      have ht : t.kind ≠ .ending := fun hkind => by simp [hkind, additive?] at hsign
      exact List.forall_mem_append.mpr
        ⟨ihleft, List.forall_mem_cons.mpr ⟨not_isEnding_of_ne ht, ihright⟩⟩
  | @multiply ts us t _ _ _ _ hsign _ ihleft ihright =>
      have ht : t.kind ≠ .ending := fun hkind => by simp [hkind, multiplicative?] at hsign
      exact List.forall_mem_append.mpr
        ⟨ihleft, List.forall_mem_cons.mpr ⟨not_isEnding_of_ne ht, ihright⟩⟩
  | negate hsign _ ih =>
      exact List.forall_mem_cons.mpr ⟨not_isEnding_of_ne (by simp [hsign]), ih⟩
  | number hkind | name hkind =>
      exact List.forall_mem_singleton.mpr (not_isEnding_of_ne (by simp [hkind]))
  | @group opening closing ts _ hopening _ hclosing ih =>
      have hfirst : opening.isEnding = false := not_isEnding_of_ne (by simp [hopening])
      have hlast : closing.isEnding = false := not_isEnding_of_ne (by simp [hclosing])
      simpa [or_imp, forall_and, hfirst, hlast] using ih

/-- Tokens that are refused: those before the first one with which no sentence goes on, and the rest. -/
structure Refused (ts front rest : List Token) : Prop where
  eq_append : ts = front ++ rest
  begins : Begins .sum front
  impossible : ∀ t, rest.head? = some t → ¬Begins .sum (front ++ [t])
  incomplete : rest = [] → ¬∃ tree, Derives .sum front tree

/-- What is left when a sum is read to its end is refused with its first token. -/
theorem refused_of_sumFrom {finish : Token} {e : ParseError}
    (h : (sumFrom finish ts >>= fun read =>
      match read.2 with
      | [] => .ok read.1
      | t :: _ => .error ⟨.unexpected, t⟩) = .error e) :
    ∃ front rest, Refused ts front rest ∧ e.token = rest.head?.getD finish := by
  rcases (splits ts).2 with @⟨front, rest, tree, rfl, hfront, hends⟩ | @⟨front, rest, rfl, hfront⟩
  · rw [hends.sumFrom_eq hfront] at h
    cases rest with
    | nil => cases h
    | cons t more =>
        cases h
        refine ⟨front, t :: more, ⟨rfl, hfront.begins_self, ?_, nofun⟩, rfl⟩
        rintro _ ⟨⟩
        exact hends.not_begins hfront
  · obtain ⟨e', hread, htoken⟩ := hfront.phraseFrom_eq finish
    change sumFrom finish (front ++ rest) = _ at hread
    rw [hread] at h
    cases h
    refine ⟨front, rest, ⟨rfl, hfront.begins, ?_, ?_⟩, htoken⟩
    · intro t ht
      exact Stuck.not_begins (ht ▸ hfront)
    · rintro rfl ⟨tree, hwhole⟩
      rw [List.append_nil] at hread
      cases hread.symm.trans (hwhole.sumFrom_eq_ok finish)

/-- Where the tokens of a text are refused, the reader names the first one with which no sentence goes
on: some sentence begins with the tokens before it, and none with these and it. At the end of the text,
whether a token marks it or not, the tokens before are no sentence themselves. -/
theorem refused_at_first_impossible {length : Nat} {tokens : List Token} {e : ParseError}
    (hfirst : ∃ first, tokens.head? = some first ∧ first.isEnding = false)
    (h : parseTokens length tokens = .error e) :
    ∃ front rest, tokens = front ++ rest ∧ e.token = rest.head?.getD (.ending length) ∧
      Begins .sum front ∧ (∀ t, rest.head? = some t → ¬Begins .sum (front ++ [t])) ∧
      ((∀ t, rest.head? = some t → t.isEnding = true) → ¬∃ tree, Derives .sum front tree) := by
  obtain ⟨first, hhead, hfirst⟩ := hfirst
  have hne : bodyOf tokens ≠ [] := by
    obtain ⟨more, rfl⟩ := List.head?_eq_some_iff.mp hhead
    simp [bodyOf, hfirst]
  rw [parseTokens_eq, if_neg hne] at h
  obtain ⟨front, rest, hrefused, htoken⟩ := refused_of_sumFrom h
  obtain ⟨tail, htail⟩ : ∃ tail, tail = tokens.dropWhile fun t => !t.isEnding := ⟨_, rfl⟩
  have htokens : tokens = front ++ (rest ++ tail) := by
    rw [← List.append_assoc, ← hrefused.eq_append, htail, bodyOf, List.takeWhile_append_dropWhile]
  rw [finishOf, List.find?_eq_head?_dropWhile_not, ← htail] at htoken
  refine ⟨front, rest ++ tail, htokens, ?_, hrefused.begins, ?_⟩
  · cases rest <;> exact htoken
  cases rest with
  | cons t more =>
      -- A token of the text itself is at fault, so that the end is not reached.
      refine ⟨hrefused.impossible, fun hending => ?_⟩
      have hbody : t ∈ bodyOf tokens := by simp [hrefused.eq_append]
      have ht : t.isEnding = false := by simpa using List.mem_takeWhile_imp hbody
      simp [hending t rfl] at ht
  | nil =>
      refine ⟨?_, fun _ => hrefused.incomplete rfl⟩
      rintro t ht ⟨more, tree, hwhole⟩
      have hfound : tokens.find? (·.isEnding) = some t := by
        rw [List.find?_eq_head?_dropWhile_not, ← htail]
        exact ht
      have hending : t.isEnding = true := List.find?_some hfound
      have hpart := hwhole.not_isEnding t (by simp)
      simp [hending] at hpart

def unclosedTokens : List Token :=
  [⟨.opening, .text "(", 0⟩, .number (.int 1) 1, .number (.int 2) 3, .ending 4]

theorem parseTokens_unclosedTokens :
    parseTokens 4 unclosedTokens = .error ⟨.unclosed, .number (.int 2) 3⟩ := by
  have hone : Derives .sum [.number (.int 1) 1] (.number (.number (.int 1))) :=
    .product (.factor (.number rfl))
  have hends : EndsBefore ([.number (.int 2) 3] : List Token).head? .sum := by
    rintro _ ⟨⟩
    exact ⟨rfl, rfl⟩
  have hinner := hends.sumFrom_eq hone (.ending 4)
  rw [parseTokens_eq, if_neg (by decide)]
  change (sumFrom (.ending 4) (_ :: ([.number (.int 1) 1] ++ [.number (.int 2) 3])) >>= _) = _
  rw [sumFrom_eq, productFrom_eq, factorFrom_opening rfl, hinner]
  rfl

theorem refused_at_first_impossible_unclosedTokens :
    (∃ first, unclosedTokens.head? = some first ∧ first.isEnding = false) ∧
    ∃ front rest, unclosedTokens = front ++ rest ∧
      Token.number (.int 2) 3 = rest.head?.getD (.ending 4) ∧ Begins .sum front ∧
      (∀ t, rest.head? = some t → ¬Begins .sum (front ++ [t])) ∧
      ((∀ t, rest.head? = some t → t.isEnding = true) → ¬∃ tree, Derives .sum front tree) :=
  ⟨⟨_, rfl, rfl⟩, refused_at_first_impossible ⟨_, rfl, rfl⟩ parseTokens_unclosedTokens⟩

end Instrument.Expr
