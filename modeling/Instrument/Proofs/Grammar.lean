import Instrument.Expr.Tree

namespace Instrument.Expr

/-- How tightly a phrase holds together. -/
inductive Phrase
  | sum
  | product
  | factor

/-- Tokens that make up a phrase, and the tree they stand for. -/
inductive Derives : Phrase → List Token → Tree → Prop
  | product {ts tree} (h : Derives .product ts tree) : Derives .sum ts tree
  | add {ts us t operator left right} (hleft : Derives .sum ts left)
      (hsign : additive? t.kind = some operator) (hright : Derives .product us right) :
      Derives .sum (ts ++ t :: us) (.binary operator left right)
  | factor {ts tree} (h : Derives .factor ts tree) : Derives .product ts tree
  | multiply {ts us t operator left right} (hleft : Derives .product ts left)
      (hsign : multiplicative? t.kind = some operator) (hright : Derives .factor us right) :
      Derives .product (ts ++ t :: us) (.binary operator left right)
  | negate {t ts tree} (hsign : t.kind = .minus) (h : Derives .factor ts tree) :
      Derives .factor (t :: ts) (.unary "-" tree)
  | number {t} (hkind : t.kind = .number) : Derives .factor [t] (.number t.content)
  | name {t} (hkind : t.kind = .name) : Derives .factor [t] (.name t.content.shown)
  | group {left right ts tree} (hleft : left.kind = .opening) (h : Derives .sum ts tree)
      (hright : right.kind = .closing) : Derives .factor (left :: (ts ++ [right])) tree

def Kind.beginsFactor : Kind → Bool
  | .minus | .number | .name | .opening => true
  | _ => false

def EndsBefore (next : Option Token) : Phrase → Prop
  | .sum => ∀ t, next = some t → additive? t.kind = none ∧ multiplicative? t.kind = none
  | .product => ∀ t, next = some t → multiplicative? t.kind = none
  | .factor => True

/-- Tokens behind which a phrase waits for something that the next token is not: a factor, or the
parenthesis that closes a group. -/
inductive Stuck (next : Option Token) : Phrase → List Token → Prop
  | expected (h : ∀ t, next = some t → t.kind.beginsFactor = false) : Stuck next .factor []
  | negate {t front} (hsign : t.kind = .minus) (h : Stuck next .factor front) :
      Stuck next .factor (t :: front)
  | inside {t front} (hopening : t.kind = .opening) (h : Stuck next .sum front) :
      Stuck next .factor (t :: front)
  | unclosed {t front tree} (hopening : t.kind = .opening) (h : Derives .sum front tree)
      (hends : EndsBefore next .sum) (hclosing : ∀ t, next = some t → t.kind ≠ .closing) :
      Stuck next .factor (t :: front)
  | factor {front} (h : Stuck next .factor front) : Stuck next .product front
  | multiply {ts front t operator left} (hleft : Derives .product ts left)
      (hsign : multiplicative? t.kind = some operator) (h : Stuck next .factor front) :
      Stuck next .product (ts ++ t :: front)
  | product {front} (h : Stuck next .product front) : Stuck next .sum front
  | add {ts front t operator left} (hleft : Derives .sum ts left)
      (hsign : additive? t.kind = some operator) (h : Stuck next .product front) :
      Stuck next .sum (ts ++ t :: front)

/-- How a list of tokens begins: with a phrase that the next token does not go on with, or with one
that is stuck. -/
inductive Splits (p : Phrase) (ts : List Token) : Prop
  | taken {front rest tree} (heq : ts = front ++ rest) (h : Derives p front tree)
      (hends : EndsBefore rest.head? p)
  | stuck {front rest} (heq : ts = front ++ rest) (h : Stuck rest.head? p front)

variable {p q : Phrase} {front rest ts : List Token} {left : Tree}

theorem splits_row (sign? : Kind → Option String) {n : Nat}
    (hends : ∀ next : Option Token, EndsBefore next q → (∀ t, next = some t → sign? t.kind = none) →
      EndsBefore next p)
    (hgrow : ∀ {ts us t operator left right}, Derives p ts left → sign? t.kind = some operator →
      Derives q us right → Derives p (ts ++ t :: us) (.binary operator left right))
    (hstuck : ∀ {next ts us t operator left}, Derives p ts left → sign? t.kind = some operator →
      Stuck next q us → Stuck next p (ts ++ t :: us))
    (hpart : ∀ us : List Token, us.length < n → Splits q us) (hrest : rest.length ≤ n)
    (hfront : Derives p front left) (hq : EndsBefore rest.head? q) : Splits p (front ++ rest) := by
  induction hlength : rest.length using Nat.strongRecOn generalizing front rest left with
  | ind m ih =>
    cases rest with
    | nil => exact .taken rfl hfront (hends _ hq nofun)
    | cons t more =>
      cases hsign : sign? t.kind with
      | none =>
          refine .taken rfl hfront (hends _ hq fun t' ht' => ?_)
          obtain rfl := Option.some.inj ht'
          exact hsign
      | some operator =>
          rw [List.length_cons] at hrest hlength
          rcases hpart more (by omega) with @⟨us, after, right, rfl, hright, hnext⟩ | ⟨rfl, hright⟩
          · rw [List.length_append] at hrest hlength
            have hgoes := ih after.length (by omega) (by omega) (hgrow hfront hsign hright) hnext rfl
            simpa using hgoes
          · exact .stuck (by simp) (hstuck hfront hsign hright)

theorem splits_factor
    (h : ∀ us : List Token, us.length < ts.length → Splits .factor us ∧ Splits .sum us) :
    Splits .factor ts := by
  cases ts with
  | nil => exact .stuck rfl (.expected nofun)
  | cons t more =>
    obtain ⟨hfactor, hsum⟩ := h more (by simp)
    by_cases hbegins : t.kind.beginsFactor = true
    · cases hkind : t.kind with
      | minus =>
          rcases hfactor with ⟨rfl, hmore, -⟩ | ⟨rfl, hmore⟩
          · exact .taken rfl (.negate hkind hmore) trivial
          · exact .stuck rfl (.negate hkind hmore)
      | number => exact .taken rfl (.number hkind) trivial
      | name => exact .taken rfl (.name hkind) trivial
      | opening =>
          rcases hsum with @⟨front, rest, tree, rfl, hmore, hends⟩ | ⟨rfl, hmore⟩
          · by_cases hclosing : ∃ t', rest.head? = some t' ∧ t'.kind = .closing
            · obtain ⟨t', hhead, hclosing⟩ := hclosing
              obtain ⟨after, rfl⟩ := List.head?_eq_some_iff.mp hhead
              have heq : t :: (front ++ t' :: after) = t :: (front ++ [t']) ++ after := by simp
              exact .taken heq (.group hkind hmore hclosing) trivial
            · exact .stuck rfl
                (.unclosed hkind hmore hends fun t' hhead ht' => hclosing ⟨t', hhead, ht'⟩)
          · exact .stuck rfl (.inside hkind hmore)
      | _ => simp [hkind, Kind.beginsFactor] at hbegins
    · refine .stuck rfl (.expected fun t' ht' => ?_)
      obtain rfl := Option.some.inj ht'
      simpa using hbegins

theorem splits (ts : List Token) : Splits .factor ts ∧ Splits .sum ts := by
  induction hlength : ts.length using Nat.strongRecOn generalizing ts with
  | ind n ih =>
    have hshorter : ∀ us : List Token, us.length < n → Splits .factor us ∧ Splits .sum us :=
      fun us hus => ih us.length hus us rfl
    have hfactor : ∀ us : List Token, us.length ≤ n → Splits .factor us := fun us hus =>
      splits_factor fun vs hvs => hshorter vs (by omega)
    have hproduct : ∀ us : List Token, us.length ≤ n → Splits .product us := by
      intro us hus
      rcases hfactor us hus with ⟨rfl, hfront, hends⟩ | ⟨rfl, hfront⟩
      · rw [List.length_append] at hus
        exact splits_row multiplicative? (fun _ _ hsign => hsign) .multiply .multiply
          (fun vs hvs => hfactor vs (by omega)) (Nat.le_refl _) (.factor hfront) hends
      · exact .stuck rfl (.factor hfront)
    refine ⟨hfactor ts (Nat.le_of_eq hlength), ?_⟩
    rcases hproduct ts (Nat.le_of_eq hlength) with ⟨rfl, hfront, hends⟩ | ⟨rfl, hfront⟩
    · rw [List.length_append] at hlength
      have hsum (next : Option Token) (hproduct : EndsBefore next .product)
          (hsign : ∀ t, next = some t → additive? t.kind = none) : EndsBefore next .sum :=
        fun t ht => ⟨hsign t ht, hproduct t ht⟩
      exact splits_row additive? hsum .add .add (fun vs hvs => hproduct vs (by omega)) (Nat.le_refl _)
        (.product hfront) hends
    · exact .stuck rfl (.product hfront)

end Instrument.Expr
