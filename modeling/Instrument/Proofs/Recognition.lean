import Instrument.Proofs.Grammar

namespace Instrument.Expr

variable {finish : Token} {ts front rest : List Token} {tree left : Tree} {p : Phrase}

abbrev Reading : Type := Except ParseError (Tree × List Token)

def unbounded {p : List Token → Prop}
    (result : Except ParseError (Tree × { rest : List Token // p rest })) : Reading :=
  result.map fun read => (read.1, read.2.1)

def sumFrom (finish : Token) (ts : List Token) : Reading := unbounded (parseSum finish ts)

def termsFrom (finish : Token) (left : Tree) (ts : List Token) : Reading :=
  unbounded (parseTerms finish left ts)

def productFrom (finish : Token) (ts : List Token) : Reading := unbounded (parseProduct finish ts)

def factorsFrom (finish : Token) (left : Tree) (ts : List Token) : Reading :=
  unbounded (parseFactors finish left ts)

def factorFrom (finish : Token) (ts : List Token) : Reading := unbounded (parseFactor finish ts)

def closingFrom (finish : Token) (ts : List Token) : Except ParseError (List Token) :=
  (dropClosing finish ts).map (·.1)

theorem sumFrom_eq (finish : Token) (ts : List Token) :
    sumFrom finish ts = productFrom finish ts >>= fun read => termsFrom finish read.1 read.2 := by
  rw [sumFrom, parseSum, productFrom]
  cases parseProduct finish ts with
  | error e => rfl
  | ok read =>
      obtain ⟨left, rest, hrest⟩ := read
      simp only [termsFrom, unbounded, Except.map, bind, Except.bind]
      cases parseTerms finish left rest <;> rfl

theorem productFrom_eq (finish : Token) (ts : List Token) :
    productFrom finish ts = factorFrom finish ts >>= fun read => factorsFrom finish read.1 read.2 := by
  rw [productFrom, parseProduct, factorFrom]
  cases parseFactor finish ts with
  | error e => rfl
  | ok read =>
      obtain ⟨left, rest, hrest⟩ := read
      simp only [factorsFrom, unbounded, Except.map, bind, Except.bind]
      cases parseFactors finish left rest <;> rfl

/-- How a loop of the reader goes on after a tree: a sign and a part after it are put to the tree,
and anything else ends the loop. -/
structure Loops (sign? : Kind → Option String) (part : List Token → Reading)
    (loop : Tree → List Token → Reading) : Prop where
  nil : ∀ left, loop left [] = .ok (left, [])
  stop : ∀ {t : Token}, sign? t.kind = none → ∀ left more,
    loop left (t :: more) = .ok (left, t :: more)
  sign : ∀ {t : Token} {operator : String}, sign? t.kind = some operator → ∀ left more,
    loop left (t :: more) =
      part more >>= fun read => loop (.binary operator left read.1) read.2

theorem loops_terms (finish : Token) : Loops additive? (productFrom finish) (termsFrom finish) where
  nil left := by
    rw [termsFrom, parseTerms]
    rfl
  stop h left more := by
    simp only [termsFrom, parseTerms, h]
    rfl
  sign {t operator} h left more := by
    simp only [termsFrom, parseTerms, h, productFrom]
    cases parseProduct finish more with
    | error e => rfl
    | ok read =>
        obtain ⟨right, rest, hrest⟩ := read
        simp only [unbounded, Except.map, bind, Except.bind]
        cases parseTerms finish (.binary operator left right) rest <;> rfl

theorem loops_factors (finish : Token) :
    Loops multiplicative? (factorFrom finish) (factorsFrom finish) where
  nil left := by
    rw [factorsFrom, parseFactors]
    rfl
  stop h left more := by
    simp only [factorsFrom, parseFactors, h]
    rfl
  sign {t operator} h left more := by
    simp only [factorsFrom, parseFactors, h, factorFrom]
    cases parseFactor finish more with
    | error e => rfl
    | ok read =>
        obtain ⟨right, rest, hrest⟩ := read
        simp only [unbounded, Except.map, bind, Except.bind]
        cases parseFactors finish (.binary operator left right) rest <;> rfl

theorem factorFrom_nil (finish : Token) : factorFrom finish [] = .error ⟨.ended, finish⟩ := by
  rw [factorFrom, parseFactor]
  rfl

theorem factorFrom_minus {t : Token} (h : t.kind = .minus) (finish : Token) (more : List Token) :
    factorFrom finish (t :: more) =
      factorFrom finish more >>= fun read => .ok (.unary "-" read.1, read.2) := by
  simp only [factorFrom, parseFactor, h]
  cases parseFactor finish more <;> rfl

theorem factorFrom_number {t : Token} (h : t.kind = .number) (finish : Token) (more : List Token) :
    factorFrom finish (t :: more) = .ok (.number t.content, more) := by
  simp only [factorFrom, parseFactor, h]
  rfl

theorem factorFrom_name {t : Token} (h : t.kind = .name) (finish : Token) (more : List Token) :
    factorFrom finish (t :: more) = .ok (.name t.content.shown, more) := by
  simp only [factorFrom, parseFactor, h]
  rfl

theorem factorFrom_opening {t : Token} (h : t.kind = .opening) (finish : Token)
    (more : List Token) :
    factorFrom finish (t :: more) =
      sumFrom finish more >>= fun read =>
        closingFrom finish read.2 >>= fun last => .ok (read.1, last) := by
  simp only [factorFrom, parseFactor, h, sumFrom]
  cases parseSum finish more with
  | error e => rfl
  | ok read =>
      obtain ⟨tree, rest, hrest⟩ := read
      simp only [closingFrom, unbounded, Except.map, bind, Except.bind]
      cases dropClosing finish rest <;> rfl

theorem factorFrom_unexpected {t : Token} (h : t.kind.beginsFactor = false) (finish : Token)
    (more : List Token) : factorFrom finish (t :: more) = .error ⟨.unexpected, t⟩ := by
  rw [factorFrom, parseFactor]
  split <;> simp_all [Kind.beginsFactor, unbounded, Except.map]

theorem closingFrom_cons (finish t : Token) (more : List Token) :
    closingFrom finish (t :: more) =
      if t.kind = .closing then .ok more else .error ⟨.unclosed, t⟩ := by
  rw [closingFrom, dropClosing]
  split <;> simp_all [Except.map]

theorem parseTokens_eq (length : Nat) (tokens : List Token) :
    parseTokens length tokens =
      if bodyOf tokens = [] then .error ⟨.empty, .ending 0⟩
      else sumFrom (finishOf length tokens) (bodyOf tokens) >>= fun read =>
        match read.2 with
        | [] => .ok read.1
        | t :: _ => .error ⟨.unexpected, t⟩ := by
  rw [parseTokens]
  cases bodyOf tokens with
  | nil => rfl
  | cons first more =>
      simp only [reduceCtorEq, if_false, sumFrom]
      cases parseSum (finishOf length tokens) (first :: more) with
      | error e => rfl
      | ok read =>
          obtain ⟨tree, rest, hrest⟩ := read
          cases rest <;> rfl

theorem bound_of_unbounded {p : List Token → Prop}
    {result : Except ParseError (Tree × { rest : List Token // p rest })}
    (h : unbounded result = .ok (tree, rest)) : p rest := by
  cases result with
  | error e => cases h
  | ok read =>
      cases h
      exact read.2.2

theorem length_lt_of_factorFrom (h : factorFrom finish ts = .ok (tree, rest)) :
    rest.length < ts.length :=
  bound_of_unbounded h

theorem length_lt_of_productFrom (h : productFrom finish ts = .ok (tree, rest)) :
    rest.length < ts.length :=
  bound_of_unbounded h

def phraseFrom (finish : Token) : Phrase → List Token → Reading
  | .sum => sumFrom finish
  | .product => productFrom finish
  | .factor => factorFrom finish

def continueFrom (finish : Token) : Phrase → Tree → List Token → Reading
  | .sum, left, rest => termsFrom finish left rest
  | .product, left, rest => factorsFrom finish left rest
  | .factor, left, rest => .ok (left, rest)

/-- What follows a sum is not taken for part of its last product. -/
def Parted : Phrase → List Token → Prop
  | .sum, rest => ∀ t, rest.head? = some t → multiplicative? t.kind = none
  | _, _ => True

theorem factorsFrom_parted (h : Parted .sum rest) (finish : Token) (left : Tree) :
    factorsFrom finish left rest = .ok (left, rest) := by
  cases rest with
  | nil => exact (loops_factors finish).nil left
  | cons t more => exact (loops_factors finish).stop (h t rfl) left more

theorem parted_of_additive {t : Token} {operator : String} (h : additive? t.kind = some operator)
    (more : List Token) : Parted .sum (t :: more) := by
  intro t' ht'
  obtain rfl := Option.some.inj ht'
  cases hkind : t.kind <;> simp_all [additive?, multiplicative?]

theorem parted_of_closing {t : Token} (h : t.kind = .closing) (more : List Token) :
    Parted .sum (t :: more) := by
  intro t' ht'
  obtain rfl := Option.some.inj ht'
  rw [h]
  rfl

theorem Derives.phraseFrom_append {p : Phrase} (h : Derives p ts tree) (finish : Token) :
    ∀ rest, Parted p rest → phraseFrom finish p (ts ++ rest) = continueFrom finish p tree rest := by
  induction h with
  | @product ts tree _ ih =>
      intro rest hrest
      have hproduct : productFrom finish (ts ++ rest) = factorsFrom finish tree rest := ih rest trivial
      change sumFrom finish (ts ++ rest) = termsFrom finish tree rest
      rw [sumFrom_eq, hproduct, factorsFrom_parted hrest]
      rfl
  | @add ts us t operator left right _ hsign _ ihleft ihright =>
      intro rest hrest
      have hleft := ihleft (t :: us ++ rest) (parted_of_additive hsign _)
      have hright : productFrom finish (us ++ rest) = factorsFrom finish right rest :=
        ihright rest trivial
      rw [List.append_assoc, hleft]
      change termsFrom finish left (t :: (us ++ rest)) = _
      rw [(loops_terms finish).sign hsign, hright, factorsFrom_parted hrest]
      rfl
  | @factor ts tree _ ih =>
      intro rest hrest
      have hfactor : factorFrom finish (ts ++ rest) = .ok (tree, rest) := ih rest trivial
      change productFrom finish (ts ++ rest) = factorsFrom finish tree rest
      rw [productFrom_eq, hfactor]
      rfl
  | @multiply ts us t operator left right _ hsign _ ihleft ihright =>
      intro rest hrest
      have hleft := ihleft (t :: us ++ rest) trivial
      have hright : factorFrom finish (us ++ rest) = .ok (right, rest) := ihright rest trivial
      rw [List.append_assoc, hleft]
      change factorsFrom finish left (t :: (us ++ rest)) = _
      rw [(loops_factors finish).sign hsign, hright]
      rfl
  | @negate t ts tree hsign _ ih =>
      intro rest hrest
      have hfactor : factorFrom finish (ts ++ rest) = .ok (tree, rest) := ih rest trivial
      change factorFrom finish (t :: (ts ++ rest)) = .ok (.unary "-" tree, rest)
      rw [factorFrom_minus hsign, hfactor]
      rfl
  | @number t hkind =>
      intro rest hrest
      exact factorFrom_number hkind finish rest
  | @name t hkind =>
      intro rest hrest
      exact factorFrom_name hkind finish rest
  | @group opening closing ts tree hopening _ hclosing ih =>
      intro rest hrest
      have hsum : sumFrom finish (ts ++ closing :: rest) = termsFrom finish tree (closing :: rest) :=
        ih (closing :: rest) (parted_of_closing hclosing rest)
      have hstop : additive? closing.kind = none := by
        rw [hclosing]
        rfl
      have happend : opening :: (ts ++ [closing]) ++ rest = opening :: (ts ++ closing :: rest) := by
        simp
      change factorFrom finish (opening :: (ts ++ [closing]) ++ rest) = .ok (tree, rest)
      rw [happend, factorFrom_opening hopening, hsum, (loops_terms finish).stop hstop]
      change (closingFrom finish (closing :: rest) >>= fun last => Except.ok (tree, last)) = _
      rw [closingFrom_cons, if_pos hclosing]
      rfl

theorem Derives.sumFrom_eq_ok (h : Derives .sum ts tree) (finish : Token) :
    sumFrom finish ts = .ok (tree, []) := by
  have hread := h.phraseFrom_append finish [] (by simp [Parted])
  rw [List.append_nil] at hread
  exact hread.trans ((loops_terms finish).nil tree)

theorem Derives.unique {tree' : Tree} (h : Derives .sum ts tree) (h' : Derives .sum ts tree') :
    tree = tree' := by
  have heq := (h.sumFrom_eq_ok (.ending 0)).symm.trans (h'.sumFrom_eq_ok (.ending 0))
  exact congrArg Prod.fst (Except.ok.inj heq)

theorem not_derives_nil : ¬Derives .sum [] tree := by
  intro h
  have hread := h.sumFrom_eq_ok (.ending 0)
  rw [sumFrom_eq, productFrom_eq, factorFrom_nil] at hread
  cases hread

theorem parseTokens_of_derives {length : Nat} {tokens : List Token}
    (h : Derives .sum (bodyOf tokens) tree) : parseTokens length tokens = .ok tree := by
  have hne : bodyOf tokens ≠ [] := by
    intro hnil
    rw [hnil] at h
    exact not_derives_nil h
  rw [parseTokens_eq, if_neg hne, h.sumFrom_eq_ok]
  rfl

theorem EndsBefore.sumFrom_eq (hends : EndsBefore rest.head? .sum) (h : Derives .sum ts tree)
    (finish : Token) : sumFrom finish (ts ++ rest) = .ok (tree, rest) := by
  have hread := h.phraseFrom_append finish rest fun t ht => (hends t ht).2
  refine hread.trans ?_
  cases rest with
  | nil => exact (loops_terms finish).nil tree
  | cons t more => exact (loops_terms finish).stop (hends t rfl).1 tree more

theorem Stuck.phraseFrom_eq (h : Stuck rest.head? p front) (finish : Token) :
    ∃ e, phraseFrom finish p (front ++ rest) = .error e ∧ e.token = rest.head?.getD finish := by
  induction h with
  | expected h =>
      cases rest with
      | nil => exact ⟨_, factorFrom_nil finish, rfl⟩
      | cons t more => exact ⟨_, factorFrom_unexpected (h t rfl) finish more, rfl⟩
  | negate hsign _ ih =>
      obtain ⟨e, hread, htoken⟩ := ih
      exact ⟨e, (factorFrom_minus hsign finish _).trans (congrArg (· >>= _) hread), htoken⟩
  | inside hopening _ ih =>
      obtain ⟨e, hread, htoken⟩ := ih
      exact ⟨e, (factorFrom_opening hopening finish _).trans (congrArg (· >>= _) hread), htoken⟩
  | @unclosed t front tree hopening h hends hclosing =>
      have hclose : ∃ e, closingFrom finish rest = .error e ∧ e.token = rest.head?.getD finish := by
        cases rest with
        | nil => exact ⟨_, rfl, rfl⟩
        | cons t more =>
            refine ⟨⟨.unclosed, t⟩, ?_, rfl⟩
            rw [closingFrom_cons, if_neg (hclosing t rfl)]
      obtain ⟨e, hread, htoken⟩ := hclose
      refine ⟨e, ?_, htoken⟩
      change factorFrom finish (t :: (front ++ rest)) = _
      rw [factorFrom_opening hopening, hends.sumFrom_eq h]
      change (closingFrom finish rest >>= fun last => Except.ok (tree, last)) = _
      rw [hread]
      rfl
  | @factor front _ ih =>
      obtain ⟨e, hread, htoken⟩ := ih
      exact ⟨e, (productFrom_eq finish _).trans (congrArg (· >>= _) hread), htoken⟩
  | @multiply ts front t operator left hleft hsign _ ih =>
      obtain ⟨e, hread, htoken⟩ := ih
      refine ⟨e, ?_, htoken⟩
      rw [List.append_assoc, hleft.phraseFrom_append finish _ trivial]
      exact ((loops_factors finish).sign hsign left _).trans (congrArg (· >>= _) hread)
  | product _ ih =>
      obtain ⟨e, hread, htoken⟩ := ih
      exact ⟨e, (sumFrom_eq finish _).trans (congrArg (· >>= _) hread), htoken⟩
  | @add ts front t operator left hleft hsign _ ih =>
      obtain ⟨e, hread, htoken⟩ := ih
      refine ⟨e, ?_, htoken⟩
      have hnext : Parted .sum (t :: (front ++ rest)) := parted_of_additive hsign _
      rw [List.append_assoc, List.cons_append, hleft.phraseFrom_append finish _ hnext]
      exact ((loops_terms finish).sign hsign left _).trans (congrArg (· >>= _) hread)

theorem derives_of_sumFrom (h : sumFrom finish ts = .ok (tree, rest)) :
    ∃ front, ts = front ++ rest ∧ Derives .sum front tree := by
  rcases (splits ts).2 with @⟨front, after, read, rfl, hfront, hends⟩ | @⟨front, after, rfl, hfront⟩
  · rw [hends.sumFrom_eq hfront] at h
    cases h
    exact ⟨front, rfl, hfront⟩
  · obtain ⟨e, hread, -⟩ := hfront.phraseFrom_eq finish
    cases hread.symm.trans h

theorem derives_of_parseTokens {length : Nat} {tokens : List Token}
    (h : parseTokens length tokens = .ok tree) : Derives .sum (bodyOf tokens) tree := by
  rw [parseTokens_eq] at h
  split at h
  · cases h
  cases hsum : sumFrom (finishOf length tokens) (bodyOf tokens) with
  | error e =>
      rw [hsum] at h
      cases h
  | ok read =>
      obtain ⟨whole, rest⟩ := read
      obtain ⟨front, hfront, hwhole⟩ := derives_of_sumFrom hsum
      rw [hsum] at h
      cases rest with
      | cons t after => cases h
      | nil =>
          cases h
          rwa [hfront, List.append_nil]

theorem parseTokens_eq_ok_iff {length : Nat} {tokens : List Token} :
    parseTokens length tokens = .ok tree ↔ Derives .sum (bodyOf tokens) tree :=
  ⟨derives_of_parseTokens, parseTokens_of_derives⟩

/-- A sign and the phrase behind it, with what they add to a tree. -/
structure Term where
  sign : Token
  operator : String
  tokens : List Token
  tree : Tree

namespace Term

def spelled (x : Term) : List Token := x.sign :: x.tokens

def attach (left : Tree) (x : Term) : Tree := .binary x.operator left x.tree

def Fits (sign? : Kind → Option String) (p : Phrase) (x : Term) : Prop :=
  sign? x.sign.kind = some x.operator ∧ Derives p x.tokens x.tree

end Term

/-- A phrase and any number of terms after it, the trees put together from the left. -/
def IsRow (sign? : Kind → Option String) (p : Phrase) (ts : List Token) (tree : Tree) : Prop :=
  ∃ (first : List Token) (left : Tree) (terms : List Term),
    Derives p first left ∧ (∀ x ∈ terms, x.Fits sign? p) ∧
    ts = first ++ terms.flatMap Term.spelled ∧ tree = terms.foldl Term.attach left

theorem IsRow.snoc {sign? : Kind → Option String} {p : Phrase} {x : Term}
    (h : IsRow sign? p ts tree) (hx : x.Fits sign? p) :
    IsRow sign? p (ts ++ x.spelled) (x.attach tree) := by
  obtain ⟨first, left, terms, hfirst, hterms, rfl, rfl⟩ := h
  refine ⟨first, left, terms ++ [x], hfirst, ?_, by simp, by simp⟩
  intro y hy
  rcases List.mem_append.1 hy with hy | hy
  · exact hterms y hy
  · rw [List.mem_singleton.1 hy]
    exact hx

end Instrument.Expr
