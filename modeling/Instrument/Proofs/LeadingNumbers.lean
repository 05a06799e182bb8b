import Instrument.Proofs.NumberTexts
import Instrument.Proofs.Recorded

namespace Instrument

open Text
open Number (IsNumeral signs forall_sign)

/-- A number, with a sign perhaps, and the word for its unit after some spaces. -/
structure Quantity where
  sign : List Char
  numeral : List Char
  spaces : Nat
  unit : List Char
  sign_mem : sign ∈ signs
  isNumeral : IsNumeral numeral
  short : numeral.countP isDigit ≤ 15
  spaced : 0 < spaces
  unit_ne : unit ≠ []
  letters : ∀ ch ∈ unit, ch.isAlpha = true

namespace Number

variable {numeral rest : List Char}

theorem IsNumeral.front_of_stop (h : IsNumeral numeral) (hstop : ∀ c ∈ rest.head?, Number.inNumeral c = false) :
    numeralFront? (numeral ++ rest) = some (numeral, rest) := by
  refine front_of_longest h fun other hother hfirst => ?_
  have hrun : (numeral ++ rest).takeWhile Number.inNumeral = numeral := h.takeWhile_append hstop
  obtain ⟨after, happend⟩ := hfirst
  rw [← happend, List.takeWhile_append_of_pos hother.inNumeral] at hrun
  rw [← hrun, List.length_append]
  exact Nat.le_add_right _ _

end Number

theorem Expr.not_isOperator_of_isPlain {c : Char} (hc : isPlain c = true) : isOperator c = false := by
  rw [← Bool.not_eq_true]
  intro hoperator
  simp only [isOperator, Bool.or_eq_true, beq_iff_eq] at hoperator
  rcases hoperator with ((((rfl | rfl) | rfl) | rfl) | rfl) | rfl <;> exact absurd hc (by decide)

namespace Quantity

variable (q : Quantity)

def tail : List Char := List.replicate q.spaces ' ' ++ q.unit

def text : List Char := q.sign ++ (q.numeral ++ q.tail)

theorem exists_tail : ∃ rest, q.tail = ' ' :: rest := by
  obtain ⟨n, hn⟩ := Nat.exists_eq_succ_of_ne_zero q.spaced.ne'
  exact ⟨List.replicate n ' ' ++ q.unit, by rw [tail, hn, List.replicate_succ, List.cons_append]⟩

theorem space_mem_text : ' ' ∈ q.text := by
  obtain ⟨rest, hrest⟩ := q.exists_tail
  simp [text, hrest]

theorem isPlain_of_mem_unit : ∀ ch ∈ q.unit, Expr.isPlain ch = true :=
  fun ch hch => Expr.isPlain_nameStart (by rw [isNameStart, q.letters ch hch, Bool.true_or])

theorem strip_unit : strip q.unit = q.unit :=
  strip_of_no_blank fun ch hch => Expr.isBlank_of_isPlain (q.isPlain_of_mem_unit ch hch)

theorem stripStart_tail : stripStart q.tail = q.unit := by
  have hspaces : ∀ ch ∈ List.replicate q.spaces ' ', isBlank ch = true := by
    intro ch hch
    rw [List.eq_of_mem_replicate hch]
    decide
  rw [tail, Document.stripStart_append hspaces, (trimmed_of_strip q.strip_unit).1]

theorem strip_tail : strip q.tail = q.unit := by
  rw [strip, q.stripStart_tail, (trimmed_of_strip q.strip_unit).2]

theorem isPlain_of_mem_numeral : ∀ ch ∈ q.numeral, Expr.isPlain ch = true :=
  fun ch hch => Number.isPlain_of_inNumeral (q.isNumeral.inNumeral ch hch)

theorem strip_text : strip q.text = q.text := by
  have hstart : stripStart q.text = q.text := by
    obtain ⟨c, rest, hcons⟩ := List.exists_cons_of_ne_nil q.isNumeral.ne_nil
    have hc : isBlank c = false := Expr.isBlank_of_isPlain (q.isPlain_of_mem_numeral c (by simp [hcons]))
    rw [text, hcons]
    cases hsign : q.sign with
    | nil => exact List.dropWhile_cons_of_neg (by simp [hc])
    | cons first more =>
        have hfirst := forall_sign (p := (!isBlank ·)) (by decide) (by decide) q.sign_mem first (by simp [hsign])
        exact List.dropWhile_cons_of_neg (by simpa using hfirst)
  have hsplit : q.text = (q.sign ++ (q.numeral ++ List.replicate q.spaces ' ')) ++ q.unit := by
    simp [text, tail]
  obtain ⟨-, hend⟩ := trimmed_of_strip q.strip_unit
  rw [strip, hstart, hsplit, stripEnd_append_of_ne (by rw [hend]; exact q.unit_ne), hend]

theorem ofText_text : Datum.ofText q.text = .text (String.ofList q.text) := by
  obtain ⟨x, hread, -⟩ | htext := Document.ofText_cases q.text
  · exact absurd (Datum.isPart_of_ofText hread q.strip_text ' ' q.space_mem_text) (by decide)
  · exact htext

theorem not_isName_text : isName q.text = false := by
  have hspace := q.space_mem_text
  cases htext : q.text with
  | nil => rfl
  | cons c rest =>
      rw [htext, List.mem_cons] at hspace
      rw [isName, Bool.and_eq_false_iff]
      rcases hspace with rfl | hmem
      · exact .inl (by decide)
      · exact .inr (List.all_eq_false.2 ⟨' ', hmem, by decide⟩)

theorem mem_text {ch : Char} (hch : ch ∈ q.text) : ch ∈ q.sign ∨ Expr.isPlain ch = true ∨ ch = ' ' := by
  simp only [text, tail, List.mem_append] at hch
  rcases hch with hsign | hnumeral | hspace | hunit
  · exact .inl hsign
  · exact .inr (.inl (q.isPlain_of_mem_numeral ch hnumeral))
  · exact .inr (.inr (List.eq_of_mem_replicate hspace))
  · exact .inr (.inl (q.isPlain_of_mem_unit ch hunit))

theorem not_isArithmetic_text (hsign : q.sign = []) : Expr.isArithmetic q.text = false := by
  rw [Expr.isArithmetic, Bool.and_eq_false_iff, List.any_eq_false]
  refine .inl fun ch hch => ?_
  rcases q.mem_text hch with hmem | hplain | rfl
  · rw [hsign] at hmem
    cases hmem
  · rw [Expr.not_isOperator_of_isPlain hplain]
    exact Bool.false_ne_true
  · decide

theorem isArithmetic_text (hsign : q.sign ≠ []) : Expr.isArithmetic q.text = true := by
  obtain ⟨first, more, hcons⟩ := List.exists_cons_of_ne_nil hsign
  have hfirst : first ∈ q.text := by simp [text, hcons]
  have hsigns : ∀ ch ∈ q.sign, ch = '+' ∨ ch = '-' := fun ch hch => by
    simpa using forall_sign (p := fun ch => ch == '+' || ch == '-') (by decide) (by decide) q.sign_mem ch hch
  have hmark := hsigns first (by simp [hcons])
  rw [Expr.isArithmetic, Bool.and_eq_true, Bool.not_eq_true', List.any_eq_true]
  refine ⟨⟨first, hfirst, by rcases hmark with rfl | rfl <;> decide⟩, ?_⟩
  rw [← Bool.not_eq_true]
  intro hplain
  have hline : '\n' ∉ q.text := by
    intro hfeed
    rcases q.mem_text hfeed with hmem | hplain | heq
    · exact absurd (hsigns _ hmem) (by decide)
    · exact absurd hplain (by decide)
    · exact absurd heq (by decide)
  have hsigned := Expr.plainlySigned_of_isPlainNumeral hplain hline
  have hspace := q.space_mem_text
  generalize q.text = text at hfirst hspace hsigned
  cases hsigned with
  | bare hnone => exact hmark.elim (hnone first hfirst).1 (hnone first hfirst).2
  | minus hnumeral =>
      rw [List.mem_cons] at hspace
      exact absurd (hnumeral.inNumeral ' ' (hspace.resolve_left (by decide))) (by decide)

theorem exponentFront_tail : Document.exponentFront q.tail = ([], q.tail) := by
  obtain ⟨rest, hrest⟩ := q.exists_tail
  rw [hrest]
  simp only [Document.exponentFront, List.splitAt_eq, List.take_succ_cons, List.take_zero, List.drop_succ_cons,
    List.drop_zero]
  split
  · rfl
  · next hmark _ => simp at hmark; simp [← hmark]
  · rfl

theorem numeralFront?_append_tail : Number.numeralFront? (q.numeral ++ q.tail) = some (q.numeral, q.tail) := by
  obtain ⟨rest, hrest⟩ := q.exists_tail
  refine q.isNumeral.front_of_stop ?_
  rw [hrest]
  rintro c ⟨⟩
  decide

theorem numberFront?_text (hsign : q.sign = []) :
    Document.numberFront? q.text = some (q.numeral, q.tail) := by
  have hfront := q.numeralFront?_append_tail
  obtain ⟨c, digits, hcons⟩ := List.exists_cons_of_ne_nil q.isNumeral.ne_nil
  have hplain := q.isPlain_of_mem_numeral c (by simp [hcons])
  have hminus : c ≠ '-' := by
    rintro rfl
    exact absurd hplain (by decide)
  have hplus : c ≠ '+' := by
    rintro rfl
    exact absurd hplain (by decide)
  rw [hcons, List.cons_append] at hfront
  rw [text, hsign, List.nil_append, hcons, List.cons_append]
  simp [Document.numberFront?, hminus, hplus, hfront, q.exponentFront_tail]

theorem beginsPlain_tail : Expr.BeginsPlain q.tail := by
  obtain ⟨c, rest, hcons⟩ := List.exists_cons_of_ne_nil q.unit_ne
  exact ⟨c, rest, by rw [q.stripStart_tail, hcons], q.isPlain_of_mem_unit c (by simp [hcons])⟩

open Document in
theorem assign_of_unsigned (hsign : q.sign = []) (strict : Bool) (owner : Owner) (attr : String)
    {schema : AttributeSchema} (hnumeric : schema.isNumeric = true) (current : Attribute)
    (info : Option NameInfo) :
    assign strict owner attr (some schema) current q.text info =
      ⟨current.withValue (some (.literal (.number (.spelled q.numeral)))),
        [.restIgnored (String.ofList q.unit) attr]⟩ := by
  rw [assign, if_neg (by simp [q.not_isName_text]), assignTyped, not_choice_of_isNumeric hnumeric, hnumeric,
    q.not_isArithmetic_text hsign]
  simp [Document.measure, q.ofText_text, q.numberFront?_text hsign, Datum.ofText_numeral q.isNumeral q.short, q.strip_tail]

open Document in
theorem assign_of_signed (hsign : q.sign ≠ []) (strict : Bool) (owner : Owner) (attr : String)
    {schema : AttributeSchema} (hnumeric : schema.isNumeric = true) (current : Attribute)
    (info : Option NameInfo) :
    assign strict owner attr (some schema) current q.text info =
      .clean (current.withValue (some (.expression (.text (String.ofList q.text))))) := by
  rw [assign, if_neg (by simp [q.not_isName_text]), assignTyped, not_choice_of_isNumeric hnumeric, hnumeric,
    q.isArithmetic_text hsign, plainValue, if_pos (q.isArithmetic_text hsign)]
  rfl

theorem comesToNothing (hsign : q.sign ≠ []) (s : Store) (key : Option String) :
    s.ComesToNothing key (.expression (.text (String.ofList q.text))) := by
  refine Store.comesToNothing_of_not_denotes (.expression _) fun d => ?_
  obtain ⟨c, digits, hcons⟩ := List.exists_cons_of_ne_nil q.isNumeral.ne_nil
  have hsource : (String.ofList q.text).toList = q.sign ++ c :: (digits ++ q.tail) := by
    rw [String.toList_ofList, text, hcons, List.cons_append]
  have hc := q.isPlain_of_mem_numeral c (by simp [hcons])
  rcases (Number.mem_signs.1 q.sign_mem).resolve_left hsign with hminus | hplus
  · rw [hminus] at hsource
    refine Store.not_denotes_of_juxtaposed (by decide) hsource hc ?_
    intro lexeme after hfront happend
    obtain ⟨rest, hread⟩ := hfront.exists_numeral (q.isNumeral.inNumeral c (by simp [hcons]))
    have hwhole := q.numeralFront?_append_tail
    rw [hcons, List.cons_append, hread] at hwhole
    obtain ⟨rfl, -⟩ := Prod.mk.inj (Option.some.inj hwhole)
    rw [List.cons_append, List.cons.injEq] at happend
    rw [← List.append_cancel_left happend.2]
    exact q.beginsPlain_tail
  · rw [hplus] at hsource
    exact Store.not_denotes_of_plus hsource

end Quantity

namespace Document

variable {c : Catalog} {strict : Bool} {owner : Owner} {attr : String} {schema : AttributeSchema}

namespace Reader

variable {r : Reader} {line text : List Char}

theorem issues_step_eq (strict : Bool) (h : r.assignment? c line = some ((owner, attr), text)) :
    (r.step c strict line).issues = r.issues ++
      (saidOfGift c strict (owner, attr) (text, r.store.nameInfo? (String.ofList text))).map
        (⟨r.line + 1, ·⟩) := by
  obtain ⟨complaints, -, hissues⟩ := (@records_step c r strict line).issues_eq
  have hsaid := issues_step_of_assignment? strict h
  rw [hissues, List.map_append, List.map_map] at hsaid
  have hsame := List.append_cancel_left hsaid
  rw [hissues, ← hsame]
  simp

theorem assignments_append (c : Catalog) (strict : Bool) (lines more : List (List Char)) : ∀ r,
    assignments c strict r (lines ++ more) =
      assignments c strict (readLines c strict r lines) more ++ assignments c strict r lines := by
  induction lines with
  | nil =>
      intro r
      rw [List.nil_append, assignments, List.append_nil]
      rfl
  | cons line rest ih =>
      intro r
      rw [List.cons_append, assignments, ih, assignments, List.append_assoc]
      rfl

end Reader

theorem Reader.lookup_assignments {before after : List (List Char)} {line text : List Char}
    (hgiven : (readLines c strict .start before).assignment? c line = some ((owner, attr), text))
    (hlast : (assignments c strict (readLines c strict .start (before ++ [line])) after).lookup (owner, attr) =
      none) :
    (assignments c strict .start (before ++ line :: after)).lookup (owner, attr) = some text := by
  rw [readLines_snoc] at hlast
  rw [assignments_append, assignments, hgiven, List.lookup_append, List.lookup_append, hlast]
  simp

/-- A number with a unit behind it, but no sign in front, is kept by every attribute of numbers, with one
warning that the unit is ignored. With a sign it is kept as arithmetic, which comes to nothing, and nothing
is said about that. -/
theorem leading_number_kept (q : Quantity) {document : String} {before after : List (List Char)}
    {line : List Char} (hlines : Text.lines document.toList = before ++ line :: after)
    (hgiven : (readLines shippedCatalog strict .start before).assignment? shippedCatalog line =
      some ((owner, attr), q.text))
    (hlast : (Reader.assignments shippedCatalog strict
      (readLines shippedCatalog strict .start (before ++ [line])) after).lookup (owner, attr) = none)
    (hschema : schemaOf shippedCatalog owner attr = some schema) (hnumeric : schema.isNumeric = true) :
    let r := readLines shippedCatalog strict .start before
    let s := (read shippedCatalog strict document).store
    let warning : Issue := ⟨r.line + 1, .restIgnored (String.ofList q.unit) attr⟩
    ∃ a, s.HasCell owner attr (.ok a) ∧
      (q.sign = [] → a.value = some (.literal (.number (.spelled q.numeral))) ∧
        (r.step shippedCatalog strict line).issues = r.issues ++ [warning] ∧ warning.severity = .warning) ∧
      (q.sign ≠ [] → (r.step shippedCatalog strict line).issues = r.issues ∧
        ∃ v, a.value = some v ∧ ∀ key, s.ComesToNothing key v) := by
  intro r s warning
  have hassigned := Reader.lookup_assignments hgiven hlast
  rw [← hlines] at hassigned
  obtain ⟨a, info, modulation, hcell, hholds⟩ :=
    Reader.exists_holds_of_given distinctKeys_shippedCatalog hassigned
  have hissues := Reader.issues_step_eq strict hgiven
  rw [Reader.saidOfGift, hschema] at hissues
  refine ⟨a, hcell, ?_, ?_⟩
  · intro hsign
    have hassign := q.assign_of_unsigned hsign strict owner attr hnumeric
    refine ⟨hholds.value.trans (Reader.value_concluded modulation hschema (hassign _ info) (by simp)), ?_, rfl⟩
    rw [hissues, hassign]
    rfl
  · intro hsign
    have hassign := q.assign_of_signed hsign strict owner attr hnumeric
    refine ⟨?_, .expression (.text (String.ofList q.text)),
      hholds.value.trans (Reader.value_concluded modulation hschema (hassign _ info) (by simp)),
      q.comesToNothing hsign s⟩
    rw [hissues, hassign]
    exact List.append_nil _

theorem schemaOf_oscillator_pitch : ∃ schema,
    schemaOf shippedCatalog (.component "lead" "oscillator") "pitch" = some schema ∧ schema.isNumeric = true :=
  (Option.any_eq_true ..).mp (by decide +kernel)

def fiveCents : Quantity where
  sign := []
  numeral := ['5']
  spaces := 1
  unit := "cents".toList
  sign_mem := by decide
  isNumeral := .whole (by decide) (List.all_eq_true.1 (by decide))
  short := by decide
  spaced := by decide
  unit_ne := by decide
  letters := List.all_eq_true.1 (by decide)

theorem leading_number_kept_cents :
    let document := "oscillator lead\n  pitch 5 cents"
    let header := "oscillator lead".toList
    let line := "  pitch 5 cents".toList
    let r := readLines shippedCatalog false .start [header]
    Text.lines document.toList = [header] ++ line :: [] ∧
      r.assignment? shippedCatalog line = some ((.component "lead" "oscillator", "pitch"), fiveCents.text) ∧
      ∃ a, (read shippedCatalog false document).store.HasCell (.component "lead" "oscillator") "pitch" (.ok a) ∧
        a.value = some (.literal (.number (.int 5))) ∧
        (r.step shippedCatalog false line).issues = r.issues ++ [⟨2, .restIgnored "cents" "pitch"⟩] := by
  intro document header line r
  have hlines : Text.lines document.toList = [header] ++ line :: [] := by decide +kernel
  have hgiven : r.assignment? shippedCatalog line =
      some ((.component "lead" "oscillator", "pitch"), fiveCents.text) := by decide +kernel
  obtain ⟨schema, hschema, hnumeric⟩ := schemaOf_oscillator_pitch
  obtain ⟨a, hcell, hunsigned, -⟩ := leading_number_kept fiveCents hlines hgiven rfl hschema hnumeric
  obtain ⟨hvalue, hissues, -⟩ := hunsigned rfl
  have hnumber : Number.spelled fiveCents.numeral = .int 5 := rfl
  rw [hnumber] at hvalue
  exact ⟨hlines, hgiven, a, hcell, hvalue, hissues⟩

def isExpression : Cell → Bool
  | .ok ⟨some (.expression _), _⟩ => true
  | _ => false

/-- Five cents down is no number of cents. -/
theorem signed_number_with_unit_not_kept :
    ¬∀ (q : Quantity) (document : String) (before after : List (List Char)) (line : List Char) (owner : Owner)
      (attr : String) (schema : AttributeSchema) (cell : Cell),
      Text.lines document.toList = before ++ line :: after →
      (readLines shippedCatalog false .start before).assignment? shippedCatalog line =
        some ((owner, attr), q.text) →
      (Reader.assignments shippedCatalog false
        (readLines shippedCatalog false .start (before ++ [line])) after).lookup (owner, attr) = none →
      schemaOf shippedCatalog owner attr = some schema → schema.isNumeric = true →
      (read shippedCatalog false document).store.HasCell owner attr cell →
        ∃ a, cell = .ok a ∧ a.value = some (.literal (Datum.ofText (q.sign ++ q.numeral))) := by
  intro hkept
  let down : Quantity := { fiveCents with sign := ['-'], sign_mem := by decide }
  obtain ⟨schema, hschema, hnumeric⟩ := schemaOf_oscillator_pitch
  obtain ⟨cell, hcell, hexpression⟩ := exists_hasCell_of_test
    (read shippedCatalog false "oscillator lead\n  pitch -5 cents").store
    (.component "lead" "oscillator") "pitch" isExpression (by decide +kernel)
  obtain ⟨⟨_, modulation⟩, rfl, rfl⟩ := hkept down "oscillator lead\n  pitch -5 cents" ["oscillator lead".toList] []
    "  pitch -5 cents".toList _ _ schema cell (by decide +kernel) (by decide +kernel) rfl hschema hnumeric hcell
  cases hexpression

end Document

end Instrument
