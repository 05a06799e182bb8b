import Instrument.Proofs.Evaluation
import Instrument.Proofs.Lexemes

namespace Instrument.Expr

open Text
open Number (IsNumeral numeralFront?)

/-- A text that stands for a token of a kind, with what the token holds. -/
inductive Lexeme : Kind → Datum → List Char → Prop
  | sign {c : Char} {kind : Kind} (hc : sign? c = some kind) :
      Lexeme kind (.text (String.singleton c)) [c]
  | decimal {cs : List Char} {x : Float} (hcs : IsNumeral cs) (hpoint : '.' ∈ cs)
      (hx : Number.readFloat? cs = some x) : Lexeme .number (.number (.float x)) cs
  | whole {cs : List Char} (hcs : IsNumeral cs) (hpoint : '.' ∉ cs) :
      Lexeme .number (.number (.int (digitsValue cs))) cs
  | name {c : Char} {cs : List Char} (hc : isNameStart c = true) (hcs : ∀ d ∈ cs, isNameRest d = true) :
      Lexeme .name (.text (String.ofList (c :: cs))) (c :: cs)

/-- Numerals without a point can be read up to the limit of digits, all else in any length. -/
def Readable (kind : Kind) (lexeme : List Char) : Prop :=
  kind = .number → '.' ∈ lexeme ∨ lexeme.length ≤ digitLimit

/-- Tokens that the text from one place to another is cut into, and what is left of it there. -/
inductive Cut : Nat → List Char → List Token → Nat → List Char → Prop
  | stop (position : Nat) (cs : List Char) : Cut position cs [] position cs
  | blank {position last : Nat} {c : Char} {cs left : List Char} {tokens : List Token}
      (hc : isBlank c = true) (h : Cut (position + 1) cs tokens last left) :
      Cut position (c :: cs) tokens last left
  | token {position last : Nat} {kind : Kind} {content : Datum} {lexeme rest left : List Char}
      {tokens : List Token} (hlexeme : Lexeme kind content lexeme)
      (hlongest : ∀ held other, Lexeme kind held other → other <+: lexeme ++ rest →
        other.length ≤ lexeme.length)
      (hread : Readable kind lexeme) (h : Cut (position + lexeme.length) rest tokens last left) :
      Cut position (lexeme ++ rest) (⟨kind, content, position⟩ :: tokens) last left

/-- A character that is no blank and begins no token, with what follows it. -/
structure Strange (c : Char) (rest : List Char) : Prop where
  not_blank : isBlank c = false
  not_sign : sign? c = none
  not_digit : isDigit c = false
  not_nameStart : isNameStart c = false
  not_point : ¬ (c = '.' ∧ ∃ d after, rest = d :: after ∧ isDigit d = true)

/-- A numeral in front of what follows it, which is too long to be read. -/
structure TooLong (numeral rest : List Char) : Prop where
  isNumeral : IsNumeral numeral
  longest : ∀ other, IsNumeral other → other <+: numeral ++ rest → other.length ≤ numeral.length
  no_point : '.' ∉ numeral
  long : digitLimit < numeral.length

theorem sign?_ne_name {c : Char} {kind : Kind} (h : sign? c = some kind) : kind ≠ .name := by
  unfold sign? at h
  split at h <;> cases h <;> simp

theorem lexeme_of_numeral {cs : List Char} (h : IsNumeral cs) :
    Lexeme .number (.number (.spelled cs)) cs := by
  rw [Number.spelled]
  split
  · next hpoint =>
      obtain ⟨d, hd, hx⟩ := h.readFloat?
      rw [hd]
      exact .decimal h (by simpa using hpoint) hx
  · next hpoint => exact .whole h (by simpa using hpoint)

theorem Lexeme.isNumeral {content : Datum} {cs : List Char} (h : Lexeme .number content cs) :
    IsNumeral cs ∧ content = .number (.spelled cs) := by
  cases h with
  | sign hc => exact absurd rfl (sign?_ne_number hc)
  | decimal hcs hpoint hx =>
      obtain ⟨d, hd, hread⟩ := hcs.readFloat?
      obtain rfl := Option.some.inj (hread.symm.trans hx)
      exact ⟨hcs, by simp [Number.spelled, hpoint, hd]⟩
  | whole hcs hpoint => exact ⟨hcs, by simp [Number.spelled, hpoint]⟩

theorem Lexeme.isName {content : Datum} {cs : List Char} (h : Lexeme .name content cs) :
    ∃ c rest, cs = c :: rest ∧ ∀ d ∈ rest, isNameRest d = true := by
  cases h with
  | sign hc => exact absurd rfl (sign?_ne_name hc)
  | name hc hcs => exact ⟨_, _, rfl, hcs⟩

theorem Lexeme.isSign {c : Char} {kind : Kind} {content : Datum} {cs : List Char}
    (hc : sign? c = some kind) (h : Lexeme kind content cs) : cs.length = 1 := by
  cases h with
  | sign => rfl
  | decimal | whole => exact absurd rfl (sign?_ne_number hc)
  | name => exact absurd rfl (sign?_ne_name hc)

theorem length_le_of_name {c : Char} {rest other : List Char} {held : Datum}
    (h : Lexeme .name held other) (hfront : other <+: c :: rest) :
    other.length ≤ (c :: rest.takeWhile isNameRest).length := by
  obtain ⟨d, more, rfl, hmore⟩ := h.isName
  obtain ⟨after, happend⟩ := hfront
  rw [List.cons_append] at happend
  obtain ⟨-, rfl⟩ := List.cons.inj happend
  rw [List.takeWhile_append_of_pos hmore]
  simp

variable {position : Nat} {c : Char} {cs rest : List Char}

theorem scanFrom_blank (hc : isBlank c = true) :
    scanFrom position (c :: cs) = scanFrom (position + 1) cs := by
  rw [scanFrom, if_pos hc]

theorem scanFrom_sign {kind : Kind} (hc : sign? c = some kind) :
    scanFrom position (c :: cs) =
      (⟨kind, .text (String.singleton c), position⟩ :: ·) <$> scanFrom (position + 1) cs := by
  rw [scanFrom, if_neg (by simp [isBlank_of_sign? hc])]
  simp only [hc]

theorem scanFrom_plain (hc : isPlain c = true) :
    scanFrom position (c :: cs) = match numeralFront? (c :: cs) with
      | some (numeral, after) =>
        match Number.ofNumeral numeral with
        | .error e => .error (.overlong e)
        | .ok n => (Token.number n position :: ·) <$> scanFrom (position + numeral.length) after
      | none =>
        if isNameStart c then
          let name := c :: cs.takeWhile isNameRest
          (Token.name (String.ofList name) position :: ·)
            <$> scanFrom (position + name.length) (cs.dropWhile isNameRest)
        else .error (.fault ⟨c, position⟩) := by
  rw [scanFrom, if_neg (by simp [isBlank_of_isPlain hc])]
  simp only [sign?_of_isPlain hc]
  split
  · next numeral after heq => cases hread : Number.ofNumeral numeral <;> simp only [heq, hread]
  · next heq => rw [heq]

theorem isPlain_of_numeral {numeral : List Char} (h : IsNumeral (c :: numeral)) : isPlain c = true :=
  h.forall_mem (by decide) (fun _ => isPlain_digit) c List.mem_cons_self

theorem front_of_nameStart (hc : isNameStart c = true) : numeralFront? (c :: cs) = none :=
  Number.front_eq_none.mpr ⟨not_digit_of_nameStart hc, fun h => ne_point_of_nameStart hc h.1⟩

theorem scanFrom_numeral {numeral : List Char} (h : IsNumeral numeral)
    (hlongest : ∀ other, IsNumeral other → other <+: numeral ++ rest → other.length ≤ numeral.length) :
    scanFrom position (numeral ++ rest) =
      match Number.ofNumeral numeral with
      | .error e => .error (.overlong e)
      | .ok n => (Token.number n position :: ·) <$> scanFrom (position + numeral.length) rest := by
  have hfront := Number.front_of_longest h hlongest
  obtain ⟨c, digits, rfl⟩ := List.exists_cons_of_ne_nil h.ne_nil
  rw [List.cons_append, scanFrom_plain (isPlain_of_numeral h), ← List.cons_append, hfront]

theorem scanFrom_tooLong {numeral : List Char} (h : TooLong numeral rest) :
    scanFrom position (numeral ++ rest) = .error (.overlong (.read numeral.length)) := by
  rw [scanFrom_numeral h.isNumeral h.longest, Number.ofNumeral_of_long h.no_point h.long]

theorem scanFrom_lexeme {kind : Kind} {content : Datum} {lexeme : List Char}
    (hlexeme : Lexeme kind content lexeme)
    (hlongest : ∀ held other, Lexeme kind held other → other <+: lexeme ++ rest →
      other.length ≤ lexeme.length) (hread : Readable kind lexeme) :
    scanFrom position (lexeme ++ rest) =
      (⟨kind, content, position⟩ :: ·) <$> scanFrom (position + lexeme.length) rest := by
  have hnumber (hkind : kind = .number) : scanFrom position (lexeme ++ rest) =
      (⟨kind, content, position⟩ :: ·) <$> scanFrom (position + lexeme.length) rest := by
    subst hkind
    obtain ⟨hnumeral, rfl⟩ := hlexeme.isNumeral
    rw [scanFrom_numeral hnumeral fun other hother => hlongest _ other (lexeme_of_numeral hother),
      Number.ofNumeral_of_readable (hread rfl)]
    rfl
  cases hlexeme with
  | sign hc => exact scanFrom_sign hc
  | decimal => exact hnumber rfl
  | whole => exact hnumber rfl
  | @name c name hc hname =>
      have hmore : rest.takeWhile isNameRest = [] := by
        have hlonger : ∀ d ∈ name ++ rest.takeWhile isNameRest, isNameRest d = true := by
          intro d hd
          exact (List.mem_append.mp hd).elim (hname d) List.mem_takeWhile_imp
        have hlength := hlongest _ _ (.name hc hlonger)
          ⟨rest.dropWhile isNameRest, by simp [List.takeWhile_append_dropWhile]⟩
        simp only [List.length_cons, List.length_append] at hlength
        exact List.eq_nil_of_length_eq_zero (by omega)
      have hdrop : rest.dropWhile isNameRest = rest := by
        have happend := List.takeWhile_append_dropWhile (p := isNameRest) (l := rest)
        rwa [hmore, List.nil_append] at happend
      rw [List.cons_append, scanFrom_plain (isPlain_nameStart hc), front_of_nameStart hc]
      simp only [hc, if_true, List.takeWhile_append_of_pos hname, hmore, List.append_nil,
        List.dropWhile_append_of_pos hname, hdrop]
      rfl

theorem scanFrom_strange (h : Strange c cs) :
    scanFrom position (c :: cs) = .error (.fault ⟨c, position⟩) := by
  have hplain : isPlain c = true := by simp [isPlain, h.not_blank, h.not_sign]
  rw [scanFrom_plain hplain, Number.front_eq_none.mpr ⟨h.not_digit, h.not_point⟩]
  simp [h.not_nameStart]

variable {last : Nat} {left : List Char} {body : List Token}

theorem Cut.scanFrom_eq (h : Cut position cs body last left) :
    scanFrom position cs = (body ++ ·) <$> scanFrom last left := by
  induction h with
  | stop position cs => cases scanFrom position cs <;> rfl
  | blank hc _ ih => rw [scanFrom_blank hc, ih]
  | @token position last kind content lexeme rest left tokens hlexeme hlongest hread _ ih =>
      rw [scanFrom_lexeme hlexeme hlongest hread, ih]
      cases scanFrom last left <;> rfl

/-- Where a text can be cut no further: at its end, at a character that begins nothing, or at a numeral
that is too long. -/
inductive Final : List Char → Prop
  | nil : Final []
  | strange {c : Char} {rest : List Char} (h : Strange c rest) : Final (c :: rest)
  | tooLong {numeral rest : List Char} (h : TooLong numeral rest) : Final (numeral ++ rest)

theorem tooLong_of_front {numeral : List Char} {o : Overlong}
    (hfront : numeralFront? cs = some (numeral, rest)) (h : Number.ofNumeral numeral = .error o) :
    TooLong numeral rest := by
  obtain ⟨hpoint, hlong⟩ := Number.long_of_ofNumeral h
  refine ⟨Number.isNumeral_of_front hfront, ?_, hpoint, hlong⟩
  intro other hother hfirst
  rw [Number.numeralFront?_append hfront] at hfirst
  exact Number.longest_of_front hfront hother hfirst

theorem exists_cut (position : Nat) (cs : List Char) :
    ∃ body last left, Cut position cs body last left ∧ Final left := by
  fun_induction scanFrom position cs with
  | case1 position => exact ⟨_, _, _, .stop position [], .nil⟩
  | case2 position c rest hblank ih =>
      obtain ⟨body, last, left, hcut, hleft⟩ := ih
      exact ⟨_, _, _, .blank hblank hcut, hleft⟩
  | case3 position c rest hblank kind hsign ih =>
      obtain ⟨body, last, left, hcut, hleft⟩ := ih
      have hlexeme := Lexeme.sign hsign
      refine ⟨_, _, _, .token hlexeme ?_ ?_ hcut, hleft⟩
      · intro held other hother _
        exact (hother.isSign hsign).le
      · exact fun hkind => absurd hkind (sign?_ne_number hsign)
  | case4 position c rest hblank hsign numeral after hfront o ho =>
      rw [← Number.numeralFront?_append hfront]
      exact ⟨_, _, _, .stop position (numeral ++ after), .tooLong (tooLong_of_front hfront ho)⟩
  | case5 position c rest hblank hsign numeral after hfront n hn ih =>
      obtain ⟨body, last, left, hcut, hleft⟩ := ih
      have hlexeme := lexeme_of_numeral (Number.isNumeral_of_front hfront)
      have happend := Number.numeralFront?_append hfront
      rw [← happend]
      refine ⟨_, _, _, .token hlexeme ?_ ?_ hcut, hleft⟩
      · intro held other hother hfirst
        rw [happend] at hfirst
        exact Number.longest_of_front hfront hother.isNumeral.1 hfirst
      · exact fun _ => Number.readable_of_ofNumeral hn
  | case6 position c rest hblank hsign hfront hstart name ih =>
      obtain ⟨body, last, left, hcut, hleft⟩ := ih
      have happend : c :: rest = name ++ rest.dropWhile isNameRest := by
        simp [name, List.takeWhile_append_dropWhile]
      rw [happend]
      refine ⟨_, _, _, .token (.name hstart fun d hd => List.mem_takeWhile_imp hd) ?_ ?_ hcut, hleft⟩
      · intro held other hother hfirst
        rw [← happend] at hfirst
        exact length_le_of_name hother hfirst
      · intro hkind
        cases hkind
  | case7 position c rest hblank hsign hfront hstart =>
      obtain ⟨hdigit, hpoint⟩ := Number.front_eq_none.mp hfront
      exact ⟨_, _, _, .stop position (c :: rest), .strange
        ⟨by simpa using hblank, hsign, hdigit, by simpa using hstart, hpoint⟩⟩

theorem Cut.consumed (h : Cut position cs body last left) :
    ∃ front, cs = front ++ left ∧ last = position + front.length := by
  induction h with
  | stop => exact ⟨[], rfl, rfl⟩
  | @blank position last c cs left tokens hc _ ih =>
      obtain ⟨front, rfl, rfl⟩ := ih
      refine ⟨c :: front, rfl, ?_⟩
      rw [List.length_cons]
      omega
  | @token position last kind content lexeme rest left tokens _ _ _ _ ih =>
      obtain ⟨front, rfl, rfl⟩ := ih
      refine ⟨lexeme ++ front, (List.append_assoc ..).symm, ?_⟩
      rw [List.length_append, Nat.add_assoc]

theorem Lexeme.ne_nil {kind : Kind} {content : Datum} (h : Lexeme kind content cs) : cs ≠ [] := by
  cases h with
  | sign => simp
  | decimal hcs => exact hcs.ne_nil
  | whole hcs => exact hcs.ne_nil
  | name => simp

theorem Cut.places (h : Cut position cs body last left) :
    (body.map Token.position).Pairwise (· < ·) ∧ ∀ t ∈ body, ∃ (start : Nat) (lexeme : List Char),
      t.position = start ∧ position ≤ start ∧ start < last ∧ Lexeme t.kind t.content lexeme ∧
        lexeme <+: cs.drop (start - position) := by
  induction h with
  | stop => exact ⟨.nil, by simp⟩
  | @blank position last c cs left tokens hc hcut ih =>
      obtain ⟨hincreasing, hplaces⟩ := ih
      refine ⟨hincreasing, ?_⟩
      intro t ht
      obtain ⟨start, lexeme, hstart, hle, hlt, hlexeme, hdrop⟩ := hplaces t ht
      refine ⟨start, lexeme, hstart, by omega, hlt, hlexeme, ?_⟩
      rwa [show start - position = start - (position + 1) + 1 by omega, List.drop_succ_cons]
  | @token position last kind content lexeme rest left tokens hlexeme hlongest hread hcut ih =>
      obtain ⟨hincreasing, hplaces⟩ := ih
      have hpos := List.length_pos_iff.mpr hlexeme.ne_nil
      constructor
      · rw [List.map_cons, List.pairwise_cons]
        refine ⟨?_, hincreasing⟩
        intro place hplace
        obtain ⟨t, ht, rfl⟩ := List.mem_map.mp hplace
        obtain ⟨start, _, hstart, hle, -⟩ := hplaces t ht
        rw [hstart]
        exact Int.ofNat_lt.mpr (by omega)
      · intro t ht
        rcases List.mem_cons.mp ht with rfl | ht
        · obtain ⟨front, -, hlast⟩ := hcut.consumed
          refine ⟨position, lexeme, rfl, Nat.le_refl _, by omega, hlexeme, ?_⟩
          rw [Nat.sub_self, List.drop_zero]
          exact List.prefix_append ..
        · obtain ⟨start, other, hstart, hle, hlt, hother, hdrop⟩ := hplaces t ht
          refine ⟨start, other, hstart, by omega, hlt, hother, ?_⟩
          rwa [show start - position = lexeme.length + (start - (position + lexeme.length)) by omega,
            List.drop_append, List.drop_eq_nil_of_le (by omega), List.nil_append,
            Nat.add_sub_cancel_left]

theorem scanFrom_of_cut (h : Cut position cs body last []) :
    scanFrom position cs = .ok (body ++ [.ending last]) := by
  rw [h.scanFrom_eq, scanFrom]
  rfl

theorem scanFrom_of_strange (h : Cut position cs body last (c :: rest)) (hc : Strange c rest) :
    scanFrom position cs = .error (.fault ⟨c, last⟩) := by
  rw [h.scanFrom_eq, scanFrom_strange hc]
  rfl

theorem scanFrom_of_tooLong {numeral : List Char} (h : Cut position cs body last (numeral ++ rest))
    (hlong : TooLong numeral rest) :
    scanFrom position cs = .error (.overlong (.read numeral.length)) := by
  rw [h.scanFrom_eq, scanFrom_tooLong hlong]
  rfl

/-- What the scanner does about a text, by where it can be cut no further. -/
theorem scan_cases (source : String) :
    (∃ body, Cut 0 source.toList body source.length [] ∧
      scan source = .ok (body ++ [.ending source.length])) ∨
    (∃ body c last rest, Cut 0 source.toList body last (c :: rest) ∧ Strange c rest ∧
      scan source = .error (.fault ⟨c, last⟩)) ∨
    ∃ body last numeral rest, Cut 0 source.toList body last (numeral ++ rest) ∧ TooLong numeral rest ∧
      scan source = .error (.overlong (.read numeral.length)) := by
  obtain ⟨body, last, left, hcut, hleft⟩ := exists_cut 0 source.toList
  cases hleft with
  | nil =>
      obtain ⟨front, hfront, hlast⟩ := hcut.consumed
      obtain rfl : last = source.length := by
        rw [hlast, ← String.length_toList, hfront]
        simp
      exact .inl ⟨body, hcut, scanFrom_of_cut hcut⟩
  | strange hc => exact .inr (.inl ⟨body, _, last, _, hcut, hc, scanFrom_of_strange hcut hc⟩)
  | tooLong hlong =>
      exact .inr (.inr ⟨body, last, _, _, hcut, hlong, scanFrom_of_tooLong hcut hlong⟩)

theorem scan_eq_ok_iff {source : String} {tokens : List Token} :
    scan source = .ok tokens ↔
      ∃ body, Cut 0 source.toList body source.length [] ∧ tokens = body ++ [.ending source.length] := by
  constructor
  · intro h
    obtain ⟨body, hcut, hscan⟩ | ⟨_, _, _, _, -, -, hscan⟩ | ⟨_, _, _, _, -, -, hscan⟩ :=
      scan_cases source
    · exact ⟨body, hcut, Except.ok.inj (h.symm.trans hscan)⟩
    · cases h.symm.trans hscan
    · cases h.symm.trans hscan
  · rintro ⟨body, hcut, rfl⟩
    exact scanFrom_of_cut hcut

theorem scan_eq_fault_iff {source : String} {e : LexError} :
    scan source = .error (.fault e) ↔
      ∃ body rest, Cut 0 source.toList body e.position (e.found :: rest) ∧ Strange e.found rest := by
  constructor
  · intro h
    obtain ⟨_, -, hscan⟩ | ⟨body, c, last, rest, hcut, hc, hscan⟩ | ⟨_, _, _, _, -, -, hscan⟩ :=
      scan_cases source
    · cases h.symm.trans hscan
    · cases h.symm.trans hscan
      exact ⟨body, rest, hcut, hc⟩
    · cases h.symm.trans hscan
  · rintro ⟨body, rest, hcut, hc⟩
    exact scanFrom_of_strange hcut hc

theorem scan_eq_overlong_iff {source : String} {o : Overlong} :
    scan source = .error (.overlong o) ↔
      ∃ body last numeral rest, Cut 0 source.toList body last (numeral ++ rest) ∧
        TooLong numeral rest ∧ o = .read numeral.length := by
  constructor
  · intro h
    obtain ⟨_, -, hscan⟩ | ⟨_, _, _, _, -, -, hscan⟩ |
      ⟨body, last, numeral, rest, hcut, hlong, hscan⟩ := scan_cases source
    · cases h.symm.trans hscan
    · cases h.symm.trans hscan
    · cases h.symm.trans hscan
      exact ⟨body, last, numeral, rest, hcut, hlong, rfl⟩
  · rintro ⟨body, last, numeral, rest, hcut, hlong, rfl⟩
    exact scanFrom_of_tooLong hcut hlong

/-- A text gives tokens exactly if it can be cut into them from end to end, and these are followed by
the end of the text. It is refused exactly at the character up to which it can be cut and which begins
nothing, and given up exactly where it can be cut up to a numeral that is too long to be read. In any
case the tokens of what has been cut stand in their order at their places. -/
theorem scan_iff_cut (source : String) :
    (∀ tokens, scan source = .ok tokens ↔
      ∃ body, Cut 0 source.toList body source.length [] ∧ tokens = body ++ [.ending source.length]) ∧
    (∀ e, scan source = .error (.fault e) ↔
      ∃ body rest, Cut 0 source.toList body e.position (e.found :: rest) ∧ Strange e.found rest) ∧
    (∀ o, scan source = .error (.overlong o) ↔
      ∃ body last numeral rest, Cut 0 source.toList body last (numeral ++ rest) ∧
        TooLong numeral rest ∧ o = .read numeral.length) ∧
    (∀ body last left, Cut 0 source.toList body last left →
      source.toList.drop last = left ∧
      (body.map Token.position).Pairwise (· < ·) ∧
      ∀ t ∈ body, ∃ (start : Nat) (lexeme : List Char), t.position = start ∧ start < last ∧
        Lexeme t.kind t.content lexeme ∧ lexeme <+: source.toList.drop start) := by
  refine ⟨fun _ => scan_eq_ok_iff, fun _ => scan_eq_fault_iff, fun _ => scan_eq_overlong_iff, ?_⟩
  intro body last left hcut
  obtain ⟨hincreasing, hplaces⟩ := hcut.places
  obtain ⟨front, hfront, hlast⟩ := hcut.consumed
  refine ⟨by simp [hfront, hlast], hincreasing, ?_⟩
  intro t ht
  obtain ⟨start, lexeme, hstart, -, hlt, hlexeme, hdrop⟩ := hplaces t ht
  exact ⟨start, lexeme, hstart, hlt, hlexeme, hdrop⟩

theorem strange_after_numeral :
    scan "2x .5." = .error (.fault ⟨'.', 5⟩) ∧
      ∃ body, Cut 0 "2x .5.".toList body 5 ['.'] ∧ (body.map Token.position).Pairwise (· < ·) := by
  obtain ⟨-, hrefused, -, hplaces⟩ := scan_iff_cut "2x .5."
  have hscan : scan "2x .5." = .error (.fault ⟨'.', 5⟩) := by with_unfolding_all rfl
  obtain ⟨body, rest, hcut, hc⟩ := (hrefused _).mp hscan
  obtain ⟨hrest, hincreasing, -⟩ := hplaces _ _ _ hcut
  have hnone : rest = [] := (List.cons.inj hrest).2.symm
  subst hnone
  exact ⟨hscan, body, hcut, hincreasing⟩

def ones (length : Nat) : String := String.ofList (List.replicate length '1')

theorem scan_ones {length : Nat} (h : digitLimit < length) :
    scan (ones length) = .error (.overlong (.read length)) := by
  have hlength : (List.replicate length '1').length = length := List.length_replicate
  have hnumeral : IsNumeral (List.replicate length '1') := by
    apply IsNumeral.whole
    · simp [List.replicate_eq_nil_iff]
      omega
    · intro c hc
      rw [List.eq_of_mem_replicate hc]
      decide
  have hlong : TooLong (List.replicate length '1') [] := by
    refine ⟨hnumeral, ?_, ?_, by rwa [hlength]⟩
    · intro other _ hother
      rw [List.append_nil] at hother
      exact hother.length_le
    · intro hpoint
      cases List.eq_of_mem_replicate hpoint
  have hcut : Cut 0 (List.replicate length '1') [] 0 (List.replicate length '1' ++ []) := by
    rw [List.append_nil]
    exact .stop 0 _
  rw [scan, ones, String.toList_ofList, scanFrom_of_tooLong hcut hlong, hlength]

/-- Not every text gives tokens or is refused at a character. -/
theorem long_numeral_given_up :
    ¬ ∀ source, (∃ tokens, scan source = .ok tokens) ∨ ∃ e, scan source = .error (.fault e) := by
  intro hall
  have hscan := scan_ones (Nat.lt_succ_self digitLimit)
  rcases hall (ones (digitLimit + 1)) with ⟨tokens, h⟩ | ⟨e, h⟩
  · cases hscan.symm.trans h
  · cases hscan.symm.trans h

end Instrument.Expr
