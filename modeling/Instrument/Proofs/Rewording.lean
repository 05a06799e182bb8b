import Instrument.Proofs.Course
import Instrument.Proofs.Findings
import Instrument.Proofs.Integrity
import Instrument.Proofs.Numerals

namespace Instrument

namespace Text

theorem firstWord_cons {ch : Char} (h : isBlank ch = false) (cs : List Char) :
    firstWord (ch :: cs) = ch :: cs.takeWhile (!isBlank ·) := by
  rw [firstWord, stripStart, List.dropWhile_cons, h, if_neg Bool.false_ne_true, List.takeWhile_cons, h]
  rfl

theorem words_cons_cons (ch next : Char) (rest : List Char) : words (ch :: next :: rest) =
    if isBlank ch then words (next :: rest)
    else if isBlank next then [ch] :: words (next :: rest)
    else match words (next :: rest) with
      | word :: others => (ch :: word) :: others
      | [] => [[ch]] := by
  rfl

theorem head?_words {ch : Char} (h : isBlank ch = false) (cs : List Char) :
    (words (ch :: cs)).head? = some (firstWord (ch :: cs)) := by
  induction cs generalizing ch with
  | nil =>
      have hwords : words [ch] = if isBlank ch then [] else [[ch]] := rfl
      rw [firstWord_cons h, hwords, if_neg (ne_true_of_eq_false h)]
      rfl
  | cons next rest ih =>
      rw [firstWord_cons h, words_cons_cons, if_neg (ne_true_of_eq_false h)]
      split
      · next hnext =>
          rw [List.takeWhile_cons, hnext]
          rfl
      · next hnext =>
          have hblank : isBlank next = false := eq_false_of_ne_true hnext
          have hih := ih hblank
          rw [firstWord_cons hblank] at hih
          cases hwords : words (next :: rest) with
          | nil =>
              rw [hwords] at hih
              cases hih
          | cons word others =>
              rw [hwords, List.head?_cons, Option.some.injEq] at hih
              rw [List.head?_cons, hih, List.takeWhile_cons, hblank]
              rfl

end Text

namespace Document

open Text

theorem bindWord_moved {strict : Bool} {owner : Owner} {attr attr' word word' : String}
    {schema : AttributeSchema} {a : Attribute} {info : Option NameInfo} {default : Datum}
    (h : (bindWord strict owner attr schema a word info).complaint =
      some (.modulatorMoved attr' word' default)) :
    attr' = attr ∧ word' = word ∧ default = schema.default ∧ a.modulation = none ∧ strict = false ∧
      ∃ i, info = some i ∧ i.isVariable = false ∧ schema.isReference = false ∧
        i.kind ∈ schema.acceptsModulation := by
  cases info with
  | none => cases h
  | some i =>
      simp only [bindWord, bindComponent, moveModulator?] at h
      split at h
      · split at h <;> cases h
      · next hvariable =>
          split at h
          · cases h
          · split at h
            · simp only [refusal, Bound.raw] at h
              split at h <;> cases h
            · next haccepts =>
                split at h
                · cases h
                · next hreference =>
                    split at h
                    · cases h
                    · next hlenient =>
                        have hlist : schema.allowList = schema.acceptsModulation := by
                          rw [AttributeSchema.allowList, if_neg hreference]
                        rw [Bool.not_eq_true', Bool.not_eq_false, AttributeSchema.accepts, hlist,
                          List.contains_eq_mem, decide_eq_true_eq] at haccepts
                        cases hmodulation : a.modulation with
                        | none =>
                            rw [hmodulation] at h
                            cases h
                            exact ⟨rfl, rfl, rfl, rfl, eq_false_of_ne_true hlenient, i, rfl,
                              eq_false_of_ne_true hvariable, eq_false_of_ne_true hreference, haccepts⟩
                        | some ref =>
                            rw [hmodulation] at h
                            cases h

theorem assign_unresolved {strict : Bool} {owner : Owner} {attr word : String} {schema : AttributeSchema}
    {current : Attribute} {text : List Char} {info : Option NameInfo}
    (h : (assign strict owner attr (some schema) current text info).attr.value =
      some (.unresolved (.text word))) : schema.type ≠ .choice ∧ String.ofList text = word := by
  have hplain (text : List Char) : some (plainValue text) ≠ some (.unresolved (.text word)) := by
    rw [plainValue]
    split <;> simp
  have hdefault : defaultValue schema ≠ some (.unresolved (.text word)) := by
    rw [defaultValue]
    split <;> simp
  have htyped : (assignTyped attr schema current text).attr.value ≠ some (.unresolved (.text word)) := by
    simp only [assignTyped, choose, measure]
    repeat' split
    all_goals simp [Assigned.clean, Attribute.withValue, hplain, hdefault]
  have hbound : (bindWord strict owner attr schema current (String.ofList text) info).attr.value ≠
      some (.unresolved (.text word)) := by
    rw [bindWord_attr]
    exact value_boundAtOnce_ne_unresolved info current.modulation (.text word)
  simp only [assign, assignName] at h
  repeat' split at h
  all_goals first
    | exact absurd h htyped
    | exact absurd h hbound
    | exact absurd h hdefault
    | skip
  next hchoice =>
    refine ⟨by simpa using hchoice, ?_⟩
    simpa [Assigned.clean, Attribute.withValue] using h

namespace Reader

variable {c : Catalog} {strict : Bool} {r r' : Reader} {line line' : List Char} {target : Owner × String}
  {owner : Owner} {attr word : String} {a : Attribute} {cell : Cell} {n : Nat}

/-- What is written down for some lines more is written down for them. -/
structure Continues (r r' : Reader) : Prop where
  attributeLines : ∃ new, r'.attributeLines = new ++ r.attributeLines ∧ ∀ entry ∈ new, r.line < entry.2
  modulationLines : ∃ new, r'.modulationLines = new ++ r.modulationLines ∧ ∀ entry ∈ new, r.line < entry.2
  issues : ∃ new, r'.issues = r.issues ++ new ∧ ∀ issue ∈ new, r.line < issue.line

theorem exists_later {α : Type} {given : Option ((Owner × String) × α)} {old mid last : AttributeLines}
    (hmid : mid = (given.map fun entry => (entry.1, n + 1)).toList ++ old)
    (hlast : ∃ new, last = new ++ mid ∧ ∀ entry ∈ new, n + 1 < entry.2) :
    ∃ new, last = new ++ old ∧ ∀ entry ∈ new, n < entry.2 := by
  obtain ⟨new, rfl, hlater⟩ := hlast
  refine ⟨_, by rw [hmid, ← List.append_assoc], ?_⟩
  intro entry hentry
  rcases List.mem_append.1 hentry with hentry | hentry
  · exact Nat.lt_of_succ_lt (hlater entry hentry)
  · obtain ⟨x, -, rfl⟩ := Option.map_eq_some_iff.1 (Option.mem_toList.1 hentry)
    exact Nat.lt_succ_self n

theorem continues_readLines (c : Catalog) (strict : Bool) (lines : List (List Char)) :
    ∀ r, Continues r (readLines c strict r lines) := by
  induction lines with
  | nil => exact fun r => ⟨⟨[], rfl, by simp⟩, ⟨[], rfl, by simp⟩, ⟨[], by simp [readLines], by simp⟩⟩
  | cons line rest ih =>
      intro r
      have hrecords := @records_step c r strict line
      have hline : (r.step c strict line).line = r.line + 1 := line_step line
      obtain ⟨hattributes, hmodulations, issues, hissues, hlater⟩ := ih (r.step c strict line)
      rw [hline] at hattributes hmodulations hlater
      have hread : readLines c strict r (line :: rest) = readLines c strict (r.step c strict line) rest := rfl
      rw [hread]
      refine ⟨exists_later hrecords.attributeLines_eq hattributes,
        exists_later hrecords.modulationLines_eq hmodulations, ?_⟩
      obtain ⟨complaints, -, hsaid⟩ := hrecords.issues_eq
      refine ⟨_, hissues.trans (by rw [hsaid, List.append_assoc]), ?_⟩
      intro issue hissue
      rcases List.mem_append.1 hissue with hissue | hissue
      · obtain ⟨complaint, -, rfl⟩ := List.mem_map.1 hissue
        exact Nat.lt_succ_self _
      · exact Nat.lt_of_succ_lt (hlater issue hissue)

theorem lt_of_lookup_readLines {lines : List (List Char)} {text : List Char}
    (hgives : r.assignment? c line = some (target, text))
    (hlookup : (readLines c strict (r.step c strict line) lines).attributeLines.lookup target = some n) :
    r.line < n := by
  obtain ⟨⟨new, hnew, hlater⟩, -, -⟩ := continues_readLines c strict lines (r.step c strict line)
  have hhere : (r.step c strict line).attributeLines.lookup target = some (r.line + 1) := by
    rw [(records_step strict line).attributeLines_eq, hgives]
    simp
  rw [hnew, List.lookup_append, hhere] at hlookup
  cases hfirst : new.lookup target with
  | none =>
      rw [hfirst, Option.none_or, Option.some.injEq] at hlookup
      omega
  | some m =>
      rw [hfirst, Option.some_or, Option.some.injEq] at hlookup
      obtain ⟨before, after, hsplit, -⟩ := List.lookup_eq_some_iff.1 hfirst
      have hm := hlater (target, m) (by simp [hsplit])
      rw [line_step] at hm
      omega

theorem exists_assignment_of_lookup {lines : List (List Char)} (hwithin : WithinLines r)
    (hlookup : (readLines c strict (r.step c strict line) lines).attributeLines.lookup target =
      some (r.line + 1)) : ∃ text, r.assignment? c line = some (target, text) := by
  obtain ⟨before, rest, hsplit, -⟩ := List.lookup_eq_some_iff.1 hlookup
  have hmem : (target, r.line + 1) ∈
      (readLines c strict (r.step c strict line) lines).attributeLines := by simp [hsplit]
  obtain ⟨⟨new, hnew, hlater⟩, -, -⟩ := continues_readLines c strict lines (r.step c strict line)
  rw [hnew, List.mem_append] at hmem
  rcases hmem with hmem | hmem
  · have hlt := hlater _ hmem
    rw [line_step] at hlt
    exact absurd hlt (Nat.lt_irrefl _)
  · rw [(records_step strict line).attributeLines_eq, List.mem_append, Option.mem_toList,
      Option.map_eq_some_iff] at hmem
    rcases hmem with ⟨⟨given, text⟩, hgives, heq⟩ | hold
    · rw [← (Prod.mk.inj heq).1]
      exact ⟨text, hgives⟩
    · have hle := (hwithin.attributes _ hold).2
      exact absurd hle (Nat.not_succ_le_self _)

def touched? (c : Catalog) (line : List Char) (r : Reader) : Option (Owner × String) :=
  ((r.assignment? c line).map Prod.fst).or ((r.attachment? c line).map Prod.fst)

theorem touched?_of_written (h : r.written? c strict line = some (target, a)) :
    r.touched? c line = some target := by
  rw [written?] at h
  rw [touched?]
  cases hassigned : r.assignment? c line with
  | some given =>
      rw [hassigned] at h
      cases h
      rfl
  | none =>
      rw [hassigned] at h
      obtain ⟨⟨who, name⟩, hattached, heq⟩ := Option.map_eq_some_iff.1 h
      cases heq
      rw [hattached]
      rfl

/-- None of some lines writes to an attribute. -/
def Spares (c : Catalog) (strict : Bool) (target : Owner × String) : Reader → List (List Char) → Prop
  | _, [] => True
  | r, line :: rest => r.touched? c line ≠ some target ∧ Spares c strict target (r.step c strict line) rest

theorem Spares.hasCell (hkeys : DistinctKeys c) {lines : List (List Char)} :
    ∀ {r}, Linked c r → Spares c strict (owner, attr) r lines →
      ((readLines c strict r lines).store.HasCell owner attr cell ↔ r.store.HasCell owner attr cell) := by
  induction lines with
  | nil =>
      intro r _ _
      exact Iff.rfl
  | cons line rest ih =>
      intro r hlinked h
      have hread : readLines c strict r (line :: rest) = readLines c strict (r.step c strict line) rest := rfl
      rw [hread, ih (hlinked.step hkeys line) h.2, hlinked.hasCell_step]
      have hother : ∀ a, r.written? c strict line ≠ some ((owner, attr), a) :=
        fun a hwrites => h.1 (touched?_of_written hwrites)
      constructor
      · rintro (⟨a, hwrites, -⟩ | ⟨-, hcell⟩)
        · exact absurd hwrites (hother a)
        · exact hcell
      · intro hcell
        exact .inr ⟨hother, hcell⟩

theorem Spares.abreast {lines : List (List Char)} :
    ∀ {r r'}, Abreast (fun _ => False) r r' → Spares c strict target r lines →
      Abreast (fun _ => False) (readLines c strict r lines) (readLines c strict r' lines) ∧
        Spares c strict target r' lines := by
  induction lines with
  | nil =>
      intro r r' habreast _
      exact ⟨habreast, trivial⟩
  | cons line rest ih =>
      intro r r' habreast h
      obtain ⟨hread, hspares⟩ := ih (habreast.step strict fun _ _ => not_false) h.2
      refine ⟨hread, ?_, hspares⟩
      have hsame : r'.touched? c line = r.touched? c line := by
        rw [touched?, touched?, habreast.assignment?_eq, habreast.attachment?_eq]
      rw [hsame]
      exact h.1

theorem modulation_stays (hkeys : DistinctKeys c) (lines : List (List Char)) :
    ∀ {r a}, Linked c r → r.store.HasCell owner attr (.ok a) → a.modulation.isSome →
      ∃ b, (readLines c strict r lines).store.HasCell owner attr (.ok b) ∧ b.modulation.isSome := by
  induction lines with
  | nil =>
      intro r a _ hcell hmodulated
      exact ⟨a, hcell, hmodulated⟩
  | cons line rest ih =>
      intro r a hlinked hcell hmodulated
      suffices hstep : ∃ b, (r.step c strict line).store.HasCell owner attr (.ok b) ∧ b.modulation.isSome by
        obtain ⟨b, hb, hmodulated'⟩ := hstep
        exact ih (hlinked.step hkeys line) hb hmodulated'
      by_cases hwrites : ∃ b, r.written? c strict line = some ((owner, attr), b)
      · obtain ⟨b, hwrites⟩ := hwrites
        refine ⟨b, hlinked.hasCell_step.2 (.inl ⟨b, hwrites, rfl⟩), ?_⟩
        cases hattached : r.attachment? c line with
        | none =>
            rw [modulation_of_written hwrites hattached, hcell.read_eq hlinked.housed.coherent]
            exact hmodulated
        | some given =>
            rw [written?, assignment?_of_attachment? hattached, hattached] at hwrites
            cases hwrites
            rfl
      · exact ⟨a, hlinked.hasCell_step.2 (.inr ⟨fun b hb => hwrites ⟨b, hb⟩, hcell⟩), hmodulated⟩

theorem spares_of_lookup (hkeys : DistinctKeys c) (lines : List (List Char)) :
    ∀ {r}, Linked c r → n ≤ r.line →
      (readLines c strict r lines).attributeLines.lookup (owner, attr) = some n →
      (readLines c strict r lines).store.HasCell owner attr (.ok a) → a.modulation = none →
      Spares c strict (owner, attr) r lines := by
  induction lines with
  | nil => exact fun _ _ _ _ _ => trivial
  | cons line rest ih =>
      intro r hlinked hn hlookup hcell hmodulation
      have hnext : Linked c (r.step c strict line) := hlinked.step hkeys line
      have hline : (r.step c strict line).line = r.line + 1 := line_step line
      refine ⟨?_, ih hnext (by omega) hlookup hcell hmodulation⟩
      intro htouched
      have hread : readLines c strict r (line :: rest) = readLines c strict (r.step c strict line) rest := rfl
      rw [hread] at hlookup hcell
      rw [touched?] at htouched
      cases hassigned : r.assignment? c line with
      | some given =>
          obtain ⟨target, text⟩ := given
          rw [hassigned] at htouched
          obtain rfl : target = (owner, attr) := Option.some.inj htouched
          have hlt := lt_of_lookup_readLines hassigned hlookup
          omega
      | none =>
          rw [hassigned, Option.map_none, Option.none_or] at htouched
          obtain ⟨⟨target, name⟩, hattached, rfl⟩ := Option.map_eq_some_iff.1 htouched
          obtain ⟨hknown, hstore⟩ := hlinked.store_of_attachment strict hattached
          have hthere := Store.hasCell_setCell hlinked.housed.coherent hknown attr
            (.ok ((r.store.read owner attr).withModulation (some (.named name))))
          rw [← hstore] at hthere
          obtain ⟨b, hb, hmodulated⟩ := modulation_stays hkeys rest hnext hthere rfl
          have hend := hnext.readLines hkeys strict rest
          have hsame := Except.ok.inj (hb.unique hend.housed.coherent hcell)
          rw [hsame, hmodulation] at hmodulated
          cases hmodulated

structure Rewords (line line' text : List Char) : Prop where
  indent_eq : indentOf line' = indentOf line
  header_eq : Header.ofContent (strip line') = ⟨(Header.ofContent (strip line)).word, text⟩

/-- A line that attaches a modulator, and is indented deeper than another. -/
structure Nests (line nested : List Char) (name : String) : Prop where
  indent_lt : indentOf line < indentOf nested
  words_eq : words (strip nested) = [modulationWord.toList, name.toList]

theorem Rewords.content_eq {text : List Char} (h : Rewords line line' text) (hne : text ≠ [])
    (hcontent : saysNothing (strip line) = false) :
    saysNothing (strip line') = false ∧ firstWord (strip line') = firstWord (strip line) := by
  have hcut : (cutAtSpace (strip line')).1 = (cutAtSpace (strip line)).1 :=
    String.ofList_inj.1 (congrArg Header.word h.header_eq)
  refine ⟨?_, by rw [← firstWord_fst_cutAtSpace, hcut, firstWord_fst_cutAtSpace]⟩
  have htake {ch : Char} {rest : List Char} (hblank : isBlank ch = false) :
      (ch :: rest).takeWhile (· != ' ') = ch :: rest.takeWhile (· != ' ') := by
    have hspace : (ch != ' ') = true := by
      rw [bne_iff_ne]
      rintro rfl
      exact absurd hblank (by decide)
    rw [List.takeWhile_cons, hspace]
    rfl
  obtain hnil' | ⟨ch', rest', hcons', hblank'⟩ := strip_cases line'
  · have hrest := congrArg Header.rest h.header_eq
    rw [hnil'] at hrest
    exact absurd hrest.symm hne
  · obtain hnil | ⟨ch, rest, hcons, hblank⟩ := strip_cases line
    · rw [hnil] at hcontent
      cases hcontent
    · rw [hcons, hcons', fst_cutAtSpace, fst_cutAtSpace, htake hblank, htake hblank'] at hcut
      rw [hcons] at hcontent
      rw [hcons', (List.cons.inj hcut).1]
      exact hcontent

theorem Rewords.ready_eq {text : List Char} (h : Rewords line line' text) (r : Reader) :
    r.ready line' = r.ready line := by
  rw [ready, ready, h.indent_eq]

theorem Rewords.assignment? {text text' : List Char} (h : Rewords line line' text') (hne : text' ≠ [])
    (hgives : r.assignment? c line = some (target, text)) :
    r.assignment? c line' = some (target, text') := by
  obtain ⟨hpasses, -⟩ := kindOf_of_assignment? hgives
  obtain ⟨hcontent, hskips⟩ := Bool.or_eq_false_iff.1 hpasses
  obtain ⟨hcontent', hfirst⟩ := h.content_eq hne hcontent
  have hpasses' : r.passes line' = false := by rw [passes, hcontent', h.indent_eq, hskips, Bool.or_false]
  simp only [Reader.assignment?] at hgives ⊢
  split at hgives
  · next hreads =>
      have hempty : text'.isEmpty = false := List.isEmpty_eq_false_iff.2 hne
      rw [h.ready_eq, h.indent_eq, hfirst, h.header_eq, if_pos ⟨hpasses', hreads.2.1, hempty⟩]
      obtain ⟨who, hwho, heq⟩ := Option.map_eq_some_iff.1 hgives
      rw [hwho, ← (Prod.mk.inj heq).1]
      rfl
  · cases hgives

theorem settle_eq_self {indent : Nat} (hframe : ∀ frame ∈ r.frames.head?, frame.indent < indent)
    (hcomponent : ∀ cursor ∈ r.component, cursor.indent < indent)
    (hattr : ∀ cursor ∈ r.attr, cursor.indent < indent) (hskip : r.skip = none) : r.settle indent = r := by
  have hcloses : r.closes indent = false := by
    rw [closes, Option.any_eq_false]
    intro frame hmem
    simpa using hframe frame hmem
  have hframes := frames_of_not_closes hcloses
  rw [frames_settle] at hframes
  have hkept {α : Type} {width : α → Nat} {cursor : Option α} (h : ∀ x ∈ cursor, width x < indent) :
      cursor.filter (width · < indent) = cursor := by
    cases cursor with
    | none => rfl
    | some x => simp [Option.filter, h x rfl]
  rw [settle_eq, hcloses, hframes, if_neg Bool.false_ne_true, if_neg Bool.false_ne_true,
    if_neg Bool.false_ne_true, hkept hcomponent, hkept hattr, ← hskip]

theorem below_ready (line : List Char) (r : Reader) :
    (∀ frame ∈ (r.ready line).frames.head?, frame.indent < indentOf line) ∧
      (∀ cursor ∈ (r.ready line).component, cursor.indent < indentOf line) ∧ (r.ready line).skip = none := by
  rw [ready, settle_eq]
  refine ⟨?_, ?_, rfl⟩
  · intro frame hframe
    have hhead := List.head?_dropWhile_not (fun frame : Frame => decide (indentOf line ≤ frame.indent)) r.frames
    rw [Option.mem_def] at hframe
    simp only at hframe
    rw [hframe] at hhead
    simpa using hhead
  · intro cursor hcursor
    simp only [Option.mem_def] at hcursor
    split at hcursor
    · cases hcursor
    · simpa using (Option.filter_eq_some_iff.1 hcursor).2

theorem content_of_words {word : List Char} (h : words (strip line) = [modulationWord.toList, word]) :
    saysNothing (strip line) = false ∧ firstWord (strip line) = modulationWord.toList := by
  obtain hnil | ⟨ch, rest, hcons, hblank⟩ := strip_cases line
  · rw [hnil] at h
    cases h
  · have hhead := head?_words hblank rest
    rw [← hcons, h] at hhead
    have hfirst : firstWord (strip line) = modulationWord.toList := (Option.some.inj hhead).symm
    refine ⟨?_, hfirst⟩
    have hletters : modulationWord.toList = 'm' :: "odulation".toList := by decide +kernel
    rw [hcons, firstWord_cons hblank, hletters] at hfirst
    rw [hcons, (List.cons.inj hfirst).1]
    rfl

theorem kindOf_of_words {word : List Char} (h : words (strip line) = [modulationWord.toList, word])
    (hword : c.isTriggerKind modulationWord = false) (r : Reader) : r.kindOf c line = .modulation := by
  have hother : modulationWord ≠ variableWord := by decide
  rw [kindOf, (content_of_words h).2, String.ofList_toList, classify, if_neg hother, hword,
    if_neg Bool.false_ne_true, if_pos rfl]

theorem ready_nested {nested text : List Char} (strict : Bool)
    (hgives : r.assignment? c line = some ((owner, attr), text)) (hlt : indentOf line < indentOf nested) :
    (r.step c strict line).attr = some ⟨attr, indentOf line, owner⟩ ∧ (r.step c strict line).skip = none ∧
      (r.step c strict line).ready nested =
        { r.step c strict line with line := (r.step c strict line).line + 1 } := by
  obtain ⟨-, hstep⟩ := step_of_assignment? strict hgives
  obtain ⟨hframe, hcomponent, hskip⟩ := below_ready line r
  have hopen : SameOpen { r.ready line with attr := some ⟨attr, indentOf line, owner⟩ }
      (r.step c strict line) := by
    rw [hstep]
    exact sameOpen_writeLine ..
  have hskips : (r.step c strict line).skip = none := by
    rw [hstep, skip_writeLine, hskip]
  refine ⟨hopen.attr_eq, hskips, settle_eq_self ?_ ?_ ?_ hskips⟩
  · rw [hopen.frames_eq]
    exact fun frame hmem => Nat.lt_trans (hframe frame hmem) hlt
  · rw [hopen.component_eq]
    exact fun cursor hmem => Nat.lt_trans (hcomponent cursor hmem) hlt
  · rw [hopen.attr_eq]
    intro cursor hcursor
    rw [← Option.some.inj hcursor]
    exact hlt

/-- The line nested under an attribute line attaches its modulator to that attribute; with both read, the
reader holds open what it would after the one line they stand for. -/
theorem Nests.step {nested text text' : List Char} (hnested : Nests line nested word)
    (hword : c.isTriggerKind modulationWord = false) (hline' : Rewords line line' text') (hne : text' ≠ [])
    (strict : Bool) (hgives : r.assignment? c line = some ((owner, attr), text)) :
    (r.step c strict line').attachment? c nested = some ((owner, attr), word) ∧
      Abreast (fun _ => False) (r.step c strict line) ((r.step c strict line').step c strict nested) := by
  have hgives' := hline'.assignment? hne hgives
  have hlt : indentOf line' < indentOf nested := by
    rw [hline'.indent_eq]
    exact hnested.indent_lt
  obtain ⟨hattr, hskips, hready⟩ := ready_nested strict hgives' hlt
  have hpasses : (r.step c strict line').passes nested = false := by
    rw [passes, (content_of_words hnested.words_eq).1, skips, hskips]
    rfl
  have hkind := kindOf_of_words hnested.words_eq hword (r.step c strict line')
  have hattached : (r.step c strict line').attachment? c nested = some ((owner, attr), word) := by
    rw [attachment?, if_pos ⟨hpasses, hkind⟩, hnested.words_eq, hready]
    simp only [hattr, Option.map_some, String.ofList_toList]
  refine ⟨hattached, ?_⟩
  have hwritten : Abreast (fun _ => False) (r.step c strict line) (r.step c strict line') := by
    rw [(step_of_assignment? strict hgives).2, (step_of_assignment? strict hgives').2, hline'.ready_eq,
      hline'.indent_eq]
    exact (Abreast.refl _ _).writeLine ..
  refine hwritten.trans ?_
  obtain ⟨-, -, -, -, hstep⟩ := step_of_attachment? strict hattached
  rw [hstep, hready, attach]
  simp only [hattr]
  refine ⟨rfl, rfl, rfl, hattr.symm, rfl, ?_⟩
  intro name _
  exact (Store.keeps_write ..).nameInfo?_eq name

theorem told_moved {default : Datum} (hr : r.store.Legible c) (htarget : target ∈ targets r.store)
    (h : ⟨n, .modulatorMoved attr word default⟩ ∈ r.told c strict target) :
    ∃ a schema info, r.store.HasCell target.1 target.2 (.ok a) ∧
      a.value = some (.unresolved (.text word)) ∧ a.modulation = none ∧ strict = false ∧
      schemaOf c target.1 target.2 = some schema ∧ target.2 = attr ∧ schema.default = default ∧
      r.store.nameInfo? word = some info ∧ info.isVariable = false ∧ schema.isReference = false ∧
      info.kind ∈ schema.acceptsModulation ∧ n = r.lineFor r.attributeLines target := by
  obtain ⟨cell, hcell⟩ := (mem_targets_of_legible hr).1 htarget
  obtain ⟨a, rfl⟩ := hr.readable _ _ _ hcell
  have hread := hcell.read_eq hr.coherent
  simp only [told, toldOfModulator, hread, List.mem_append, Option.mem_toList,
    Option.map_eq_some_iff] at h
  rcases h with ⟨complaint, hcomplaint, heq⟩ | ⟨complaint, hcomplaint, heq⟩
  · injection heq with hline hsaid
    subst hsaid
    rw [bindValue] at hcomplaint
    split at hcomplaint
    · next word' hvalue =>
        cases hschema : schemaOf c target.1 target.2 with
        | none =>
            rw [hschema] at hcomplaint
            cases hcomplaint
        | some schema =>
            rw [hschema] at hcomplaint
            obtain ⟨rfl, rfl, hdefault, hmodulation, hstrict, info, hinfo, hvariable, href, haccepts⟩ :=
              bindWord_moved hcomplaint
            exact ⟨a, schema, info, hcell, hvalue, hmodulation, hstrict, rfl, rfl, hdefault.symm, hinfo,
              hvariable, href, haccepts, hline.symm⟩
    · cases hcomplaint
  · injection heq with hline hsaid
    subst hsaid
    rw [modulationComplaint?] at hcomplaint
    split at hcomplaint
    · split at hcomplaint
      · cases hcomplaint
      · next complaint herror =>
          have hsevere := bindModulator_error herror
          rw [Option.some.inj hcomplaint] at hsevere
          cases hsevere
    · cases hcomplaint

/-- An attribute line whose word is a modulator that was moved. -/
structure Moves (c : Catalog) (r : Reader) (line : List Char) (after : List (List Char)) (owner : Owner)
    (attr word : String) (schema : AttributeSchema) (info : NameInfo) : Prop where
  assigned : r.assignment? c line = some ((owner, attr), word.toList)
  schema_eq : schemaOf c owner attr = some schema
  type_ne : schema.type ≠ .choice
  nameInfo?_eq : (readLines c false (r.step c false line) after).store.nameInfo? word = some info
  component : info.isVariable = false
  not_reference : schema.isReference = false
  accepts : info.kind ∈ schema.acceptsModulation
  spares : Spares c false (owner, attr) (r.step c false line) after
  hasCell : (readLines c false (r.step c false line) after).store.HasCell owner attr
    (.ok ⟨some (.unresolved (.text word)), none⟩)

theorem moves_of_told (hkeys : DistinctKeys c) {default : Datum} {after : List (List Char)}
    (hlinked : Linked c r) (hwithin : WithinLines r)
    (hlegible : (readLines c false (r.step c false line) after).store.Legible c)
    (hnoted : Noted (readLines c false (r.step c false line) after))
    (htarget : target ∈ targets (readLines c false (r.step c false line) after).store)
    (htold : ⟨r.line + 1, .modulatorMoved attr word default⟩ ∈
      (readLines c false (r.step c false line) after).told c false target) :
    ∃ owner schema info, Moves c r line after owner attr word schema info ∧ schema.default = default := by
  obtain ⟨owner, attr'⟩ := target
  obtain ⟨⟨value, modulation⟩, schema, info, hcell, hvalue, hmodulation, -, hschema, hattr, hdefault, hinfo,
    hvariable, href, haccepts, hline⟩ := told_moved hlegible htarget htold
  simp only at hvalue hmodulation hattr hschema
  subst hvalue hmodulation hattr
  have hcount : (r.step c false line).line = r.line + 1 := line_step line
  have hlookup : (readLines c false (r.step c false line) after).attributeLines.lookup (owner, attr') =
      some (r.line + 1) := by
    obtain ⟨m, hm⟩ := Option.isSome_iff_exists.1 (hnoted.cell hcell)
    rw [lineFor, hm, Option.getD_some] at hline
    rw [hm, hline]
  obtain ⟨text, hassigned⟩ := exists_assignment_of_lookup hwithin hlookup
  have hnext : Linked c (r.step c false line) := hlinked.step hkeys line
  have hspares := spares_of_lookup hkeys after hnext hcount.ge hlookup hcell rfl
  obtain ⟨hknown, hstore⟩ := hlinked.store_of_assignment false hassigned
  have hhere := (hspares.hasCell hkeys hnext).1 hcell
  rw [hstore, hschema] at hhere
  have hattr := (Store.hasCell_setCell hlinked.housed.coherent hknown attr' _).unique
    ((Store.keeps_setCell ..).coherent hlinked.housed.coherent) hhere
  have hvalue := congrArg Attribute.value (Except.ok.inj hattr)
  obtain ⟨htype, hword⟩ := assign_unresolved hvalue
  have htext : text = word.toList := by rw [← hword, String.toList_ofList]
  rw [htext] at hassigned
  exact ⟨owner, schema, info, ⟨hassigned, hschema, htype, hinfo, hvariable, href, haccepts, hspares, hcell⟩,
    hdefault⟩

variable {schema : AttributeSchema} {info : NameInfo} {after : List (List Char)} {nested text : List Char}

theorem Moves.hasCell_nested (hkeys : DistinctKeys c) (hlinked : Linked c r)
    (h : Moves c r line after owner attr word schema info) (htext : WholeNumeral text)
    (hword : c.isTriggerKind modulationWord = false) (hline' : Rewords line line' text)
    (hnested : Nests line nested word) :
    (readLines c false ((r.step c false line').step c false nested) after).store.HasCell owner attr
        (.ok ⟨some (.literal (Datum.ofText text)), some (.named word)⟩) ∧
      (readLines c false ((r.step c false line').step c false nested) after).store.nameInfo? word =
        some info := by
  have hgives := hline'.assignment? htext.ne_nil h.assigned
  have hlinked' : Linked c (r.step c false line') := hlinked.step hkeys line'
  have hlinked'' : Linked c ((r.step c false line').step c false nested) := hlinked'.step hkeys nested
  obtain ⟨hattached, habreast⟩ := hnested.step hword hline' htext.ne_nil false h.assigned
  obtain ⟨hread, hspares⟩ := h.spares.abreast habreast
  refine ⟨(hspares.hasCell hkeys hlinked'').2 ?_, ?_⟩
  · obtain ⟨hknown, hstore⟩ := hlinked.store_of_assignment false hgives
    obtain ⟨hknown', hstore'⟩ := hlinked'.store_of_attachment false hattached
    have hvalued : (r.step c false line').store.HasCell owner attr
        (.ok ⟨some (.literal (Datum.ofText text)), (r.store.read owner attr).modulation⟩) := by
      rw [hstore, h.schema_eq, (htext.assign_eq false owner attr h.type_ne _ _).1]
      exact Store.hasCell_setCell hlinked.housed.coherent hknown attr _
    rw [hstore', hvalued.read_eq hlinked'.housed.coherent]
    exact Store.hasCell_setCell hlinked'.housed.coherent hknown' attr _
  · rw [hread.nameInfo?_eq word not_false]
    exact h.nameInfo?_eq

theorem eq_of_mem_between {k : Nat} {new old : AttributeLines} {entry : (Owner × String) × Nat}
    (hlater : ∀ entry ∈ new, n + 2 < entry.2) (hearlier : ∀ entry ∈ old, entry.2 ≤ n)
    (hentry : entry ∈ new ++ (target, k) :: old) (hlt : n < entry.2) (hle : entry.2 ≤ n + 2) :
    entry.1 = target := by
  rcases List.mem_append.1 hentry with hentry | hentry
  · exact absurd (hlater entry hentry) (Nat.not_lt.2 hle)
  · rcases List.mem_cons.1 hentry with rfl | hold
    · rfl
    · exact absurd (hearlier entry hold) (Nat.not_le.2 hlt)

theorem Moves.entries_nested (hwithin : WithinLines r) (h : Moves c r line after owner attr word schema info)
    (htext : WholeNumeral text) (hword : c.isTriggerKind modulationWord = false)
    (hline' : Rewords line line' text) (hnested : Nests line nested word) :
    let last := readLines c false ((r.step c false line').step c false nested) after
    ∀ entry ∈ last.attributeLines ++ last.modulationLines,
      r.line < entry.2 → entry.2 ≤ r.line + 2 → entry.1 = (owner, attr) := by
  intro last entry hentry hlt hle
  have hgives := hline'.assignment? htext.ne_nil h.assigned
  obtain ⟨hattached, -⟩ := hnested.step hword hline' htext.ne_nil false h.assigned
  have hrecords := @records_step c r false line'
  have hrecords' := @records_step c (r.step c false line') false nested
  rw [hgives, attachment?_of_assignment? hgives] at hrecords
  rw [hattached, assignment?_of_attachment? hattached] at hrecords'
  obtain ⟨⟨new, hnew, hlater⟩, ⟨new', hnew', hlater'⟩, -⟩ :=
    continues_readLines c false after ((r.step c false line').step c false nested)
  rw [line_step, line_step] at hlater hlater'
  rcases List.mem_append.1 hentry with hentry | hentry
  · rw [hnew, hrecords'.attributeLines_eq, hrecords.attributeLines_eq] at hentry
    exact eq_of_mem_between hlater (fun entry hold => (hwithin.attributes entry hold).2) hentry hlt hle
  · rw [hnew', hrecords'.modulationLines_eq, hrecords.modulationLines_eq] at hentry
    exact eq_of_mem_between hlater' (fun entry hold => (hwithin.modulations entry hold).2) hentry hlt hle

theorem Moves.issues_nested (hwithin : WithinLines r) (h : Moves c r line after owner attr word schema info)
    (htext : WholeNumeral text) (hword : c.isTriggerKind modulationWord = false)
    (hline' : Rewords line line' text) (hnested : Nests line nested word) :
    ∀ issue ∈ (readLines c false ((r.step c false line').step c false nested) after).issues,
      r.line < issue.line → issue.line ≤ r.line + 2 → issue.complaint.severity = .warning := by
  intro issue hissue hlt hle
  obtain ⟨-, hstep⟩ := step_of_assignment? false (hline'.assignment? htext.ne_nil h.assigned)
  obtain ⟨hattached, -⟩ := hnested.step hword hline' htext.ne_nil false h.assigned
  have hsame : ((r.step c false line').step c false nested).issues = (r.step c false line').issues := by
    obtain ⟨cursor, hcursor, -, -, hstep⟩ := step_of_attachment? false hattached
    rw [hstep, attach, hcursor, ready, settle_eq]
  obtain ⟨-, -, issues, hissues, hlater⟩ :=
    continues_readLines c false after ((r.step c false line').step c false nested)
  rw [line_step, line_step] at hlater
  rw [hissues, List.mem_append] at hissue
  rcases hissue with hissue | hissue
  · rw [hsame, hstep, writeLine] at hissue
    simp only [complainAll_eq, h.schema_eq, Option.isNone_some, Bool.false_eq_true, if_false,
      List.mem_append, List.mem_map] at hissue
    rcases hissue with hold | ⟨complaint, hcomplaint, rfl⟩
    · rw [ready, settle_eq] at hold
      exact absurd (hwithin.issues issue hold).2 (Nat.not_le.2 hlt)
    · exact (htext.assign_eq false owner attr h.type_ne _ _).2 complaint hcomplaint
  · exact absurd (hlater issue hissue) (Nat.not_lt.2 hle)

theorem Moves.boundAttribute_eq (h : Moves c r line after owner attr word schema info) {s : Store}
    (hinfo : s.nameInfo? word = some info) :
    boundAttribute c false (owner, attr) s ⟨some (.unresolved (.text word)), none⟩ =
      ⟨standIn schema, some (.bound word info.kind)⟩ := by
  rw [boundAttribute_of_given h.schema_eq (.inl rfl), hinfo]
  simp [boundAtOnce, h.component, h.not_reference, h.accepts]

theorem Moves.boundAttribute_nested (h : Moves c r line after owner attr word schema info) {s : Store}
    (hinfo : s.nameInfo? word = some info) (d : Datum) :
    boundAttribute c false (owner, attr) s ⟨some (.literal d), some (.named word)⟩ =
      ⟨some (.literal d), some (if info.kind ∈ c.modulatorKinds then .bound word info.kind
        else .named word)⟩ := by
  rw [boundAttribute, boundModulation_eq h.schema_eq]
  have hsettled : settledModulator c schema s (.named word) =
      if info.kind ∈ c.modulatorKinds then .bound word info.kind else .named word := by
    simp only [settledModulator, ComponentRef.named, hinfo, h.component, h.accepts, true_and, and_true]
  change (⟨some (.literal d), some (settledModulator c schema s (.named word))⟩ : Attribute) = _
  rw [hsettled]

theorem Moves.told_nested (h : Moves c r line after owner attr word schema info)
    {last : Reader} (hlast : last.store.Legible c) (hinfo : last.store.nameInfo? word = some info) {d : Datum}
    (hcell : last.store.HasCell owner attr (.ok ⟨some (.literal d), some (.named word)⟩))
    (hkind : info.kind ∈ c.modulatorKinds) : last.told c false (owner, attr) = [] := by
  have hreceives : schema.receivesModulation = true := by
    rw [AttributeSchema.receivesModulation, Bool.not_eq_true', List.isEmpty_eq_false_iff]
    exact List.ne_nil_of_mem h.accepts
  have hmodulator : bindModulator c.modulatorKinds attr (some schema) word (some info) = .ok info.kind := by
    simp [bindModulator, Option.filter, h.component, hkind, hreceives, h.accepts]
  have hread := hcell.read_eq hlast.coherent
  have hvalue : bindValue c false (owner, attr) ⟨some (.literal d), some (.named word)⟩ last.store =
      .clean ⟨some (.literal d), some (.named word)⟩ := rfl
  have hsaid : modulationComplaint? c (owner, attr) last.store ⟨some (.literal d), some (.named word)⟩ =
      none := by
    simp only [modulationComplaint?, ComponentRef.named, h.schema_eq, hinfo, hmodulator]
  rw [told, hread, hvalue]
  simp only [toldOfModulator, Bound.clean, hsaid, Option.map_none, Option.toList_none, List.append_nil]

theorem Moves.concluded (h : Moves c r line after owner attr word schema info)
    (hlegible : (readLines c false (r.step c false line) after).store.Legible c) {d : Datum}
    (hdefault : standIn schema = some (.literal d)) :
    ((readLines c false (r.step c false line) after).conclude c false).store.HasCell owner attr
      (.ok ⟨some (.literal d), some (.bound word info.kind)⟩) := by
  rw [hasCell_conclude_iff hlegible]
  exact ⟨_, h.hasCell, by rw [h.boundAttribute_eq h.nameInfo?_eq, hdefault]⟩

/-- The recommended lines come to the same as the line they stand for where the kind of the modulator is
one that modulates, and only there. -/
theorem Moves.concluded_nested (hkeys : DistinctKeys c) (hlinked : Linked c r) (hwithin : WithinLines r)
    (h : Moves c r line after owner attr word schema info) (htext : WholeNumeral text)
    (hword : c.isTriggerKind modulationWord = false) (hline' : Rewords line line' text)
    (hnested : Nests line nested word) {last : Reader}
    (hlast : readLines c false ((r.step c false line').step c false nested) after = last)
    (hlegible : last.store.Legible c) (hnoted : Noted last) :
    info.kind ∈ c.modulatorKinds ↔
      (last.conclude c false).store.HasCell owner attr
          (.ok ⟨some (.literal (Datum.ofText text)), some (.bound word info.kind)⟩) ∧
        ∀ issue ∈ (last.conclude c false).issues, issue.complaint.severity = .error →
          issue.line ≠ r.line + 1 ∧ issue.line ≠ r.line + 2 := by
  obtain ⟨hcell, hinfo⟩ := h.hasCell_nested hkeys hlinked htext hword hline' hnested
  have hentries := h.entries_nested hwithin htext hword hline' hnested
  have hissues := h.issues_nested hwithin htext hword hline' hnested
  rw [hlast] at hcell hinfo hentries hissues
  constructor
  · intro hkind
    refine ⟨?_, ?_⟩
    · rw [hasCell_conclude_iff hlegible]
      exact ⟨_, hcell, by rw [h.boundAttribute_nested hinfo, if_pos hkind]⟩
    · intro issue hissue hsevere
      suffices hnot : ¬(r.line < issue.line ∧ issue.line ≤ r.line + 2) by omega
      rintro ⟨hlt, hle⟩
      rw [issues_conclude hlegible, List.mem_append, List.mem_flatMap] at hissue
      rcases hissue with hissue | ⟨target, htarget, htold⟩
      · rw [hissues issue hissue hlt hle] at hsevere
        cases hsevere
      · have hentry : (target, issue.line) ∈ last.attributeLines ++ last.modulationLines :=
          List.mem_append.2 (mem_told hlegible hnoted htarget htold)
        have hsame : target = (owner, attr) := hentries _ hentry hlt hle
        rw [hsame, h.told_nested hlegible hinfo hcell hkind] at htold
        cases htold
  · rintro ⟨hbound, -⟩
    obtain ⟨a, ha, heq⟩ := (hasCell_conclude_iff hlegible).1 hbound
    rw [Except.ok.inj (ha.unique hlegible.coherent hcell), h.boundAttribute_nested hinfo] at heq
    have hmodulation := congrArg Attribute.modulation (Except.ok.inj heq)
    by_contra hkind
    rw [if_neg hkind] at hmodulation
    cases hmodulation

end Reader

theorem mem_errors {r : Reader} {issue : Issue} :
    issue ∈ r.errors ↔ issue ∈ r.issues ∧ issue.complaint.severity = .error := by
  simp [Reader.errors, Reader.issuesWith, Issue.isError, Issue.severity]

variable {c : Catalog} {before after : List (List Char)} {line line' nested : List Char}
  {text text' attr word : String} {d : Int}

/-- The lines that a warning about a moved modulator recommends, the default and the modulator on a line of
its own, come to the same attribute without an error if and only if the kind of the modulator is one that
modulates. To the warning it makes no difference: where the modulator stands as the value, it is enough
that the attribute accepts the kind. -/
theorem recommended_lines (hkeys : DistinctKeys c) (hword : c.isTriggerKind modulationWord = false)
    (htext : Text.lines text.toList = before ++ line :: after)
    (htext' : Text.lines text'.toList = before ++ line' :: nested :: after)
    (hmoved : ⟨before.length + 1, .modulatorMoved attr word (.number (.int d))⟩ ∈
      (read c false text).warnings)
    (hline' : Reader.Rewords line line' (Datum.number (.int d)).shown.toList)
    (hnested : Reader.Nests line nested word) :
    ∃ owner info, (readLines c false .start before).assignment? c line = some ((owner, attr), word.toList) ∧
      (read c false text).store.nameInfo? word = some info ∧
      let final := .ok ⟨some (.literal (Datum.ofText (Datum.number (.int d)).shown.toList)),
        some (.bound word info.kind)⟩
      (read c false text).store.HasCell owner attr final ∧
      (info.kind ∈ c.modulatorKinds ↔ (read c false text').store.HasCell owner attr final ∧
        ∀ issue ∈ (read c false text').errors,
          issue.line ≠ before.length + 1 ∧ issue.line ≠ before.length + 2) := by
  have hlinked := Reader.linked_readLines hkeys false before
  have hwithin := Reader.withinLines_readLines c false before Reader.withinLines_start
  have hcount : (readLines c false .start before).line = before.length := by
    rw [Reader.line_readLines]
    exact Nat.zero_add _
  have hfirst : readLines c false .start (Text.lines text.toList) =
      readLines c false ((readLines c false .start before).step c false line) after := by
    rw [htext]
    exact List.foldl_append
  have hsecond : readLines c false .start (Text.lines text'.toList) =
      readLines c false (((readLines c false .start before).step c false line').step c false nested) after := by
    rw [htext']
    exact List.foldl_append
  have hlegible := (Reader.founded_readLines c false (Text.lines text.toList)).legible
  have hlegible' := (Reader.founded_readLines c false (Text.lines text'.toList)).legible
  have hnoted := Reader.noted_readLines hkeys false (Text.lines text.toList)
  have hnoted' := Reader.noted_readLines hkeys false (Text.lines text'.toList)
  have hread : read c false text = (readLines c false .start (Text.lines text.toList)).conclude c false := rfl
  have hread' : read c false text' =
      (readLines c false .start (Text.lines text'.toList)).conclude c false := rfl
  rw [hfirst] at hlegible hnoted hread
  rw [hsecond] at hlegible' hnoted' hread'
  have hissue : ⟨before.length + 1, .modulatorMoved attr word (.number (.int d))⟩ ∈
      (read c false text).issues :=
    List.mem_of_mem_filter (List.mem_mergeSort.1 hmoved)
  generalize hbefore : readLines c false .start before = r at *
  have hquiet : ⟨before.length + 1, .modulatorMoved attr word (.number (.int d))⟩ ∉
      (readLines c false (r.step c false line) after).issues := by
    intro hsaid
    have hlines := Reader.withinLines_readLines c false (Text.lines text.toList) Reader.withinLines_start
    rw [hfirst] at hlines
    cases hlines.quiet _ hsaid
  rw [hread, Reader.issues_conclude hlegible, List.mem_append, List.mem_flatMap] at hissue
  obtain ⟨target, htarget, htold⟩ := hissue.resolve_left hquiet
  rw [← hcount] at htold
  obtain ⟨owner, schema, info, hmoves, hdefault⟩ :=
    Reader.moves_of_told hkeys hlinked hwithin hlegible hnoted htarget htold
  have hstandIn : standIn schema =
      some (.literal (Datum.ofText (Datum.number (.int d)).shown.toList)) := by
    rw [standIn, hdefault]
  have hsame := hmoves.concluded_nested hkeys hlinked hwithin (wholeNumeral_shown d) hword hline' hnested
    rfl hlegible' hnoted'
  refine ⟨owner, info, hmoves.assigned, ?_, ?_, ?_⟩
  · rw [hread, Reader.nameInfo?_conclude]
    exact hmoves.nameInfo?_eq
  · rw [hread]
    exact hmoves.concluded hlegible hstandIn
  · rw [hread', hsame, hcount]
    simp only [mem_errors, and_imp]

def Complaint.movedWhole? : Complaint → Option (String × String × Int)
  | .modulatorMoved attr word (.number (.int d)) => some (attr, word, d)
  | _ => none

theorem movedWhole?_eq_some {complaint : Complaint} :
    complaint.movedWhole? = some (attr, word, d) ↔
      complaint = .modulatorMoved attr word (.number (.int d)) := by
  constructor
  · intro h
    unfold Complaint.movedWhole? at h
    split at h
    · cases h
      rfl
    · cases h
  · rintro rfl
    rfl

def pitchTextNested : String := "lfo wobble\nosc lead\n  pitch 5\n    modulation wobble"

theorem recommended_lines_pitchText :
    (read (pitchCatalog (.number (.int 5))) false pitchTextNested).store.HasCell (.component "lead" "osc")
        "pitch" (.ok ⟨some (.literal (Datum.ofText ['5'])), some (.bound "wobble" "lfo")⟩) ∧
      ∀ issue ∈ (read (pitchCatalog (.number (.int 5))) false pitchTextNested).errors,
        issue.line ≠ 3 ∧ issue.line ≠ 4 := by
  have hlines : Text.lines pitchText.toList =
      ["lfo wobble".toList, "osc lead".toList] ++ "  pitch wobble".toList :: [] := by
    decide +kernel
  have hlines' : Text.lines pitchTextNested.toList = ["lfo wobble".toList, "osc lead".toList] ++
      "  pitch 5".toList :: "    modulation wobble".toList :: [] := by
    decide +kernel
  have hmoved : ⟨3, .modulatorMoved "pitch" "wobble" (.number (.int 5))⟩ ∈
      (read (pitchCatalog (.number (.int 5))) false pitchText).warnings := by
    have hany : (read (pitchCatalog (.number (.int 5))) false pitchText).warnings.any (fun issue =>
        issue.line == 3 && issue.complaint.movedWhole? == some ("pitch", "wobble", 5)) = true := by
      decide +kernel
    obtain ⟨⟨line, complaint⟩, hmem, hsame⟩ := List.any_eq_true.1 hany
    rw [Bool.and_eq_true, beq_iff_eq, beq_iff_eq] at hsame
    obtain ⟨rfl, hsame⟩ := hsame
    obtain rfl := movedWhole?_eq_some.1 hsame
    exact hmem
  have hassigned : (readLines (pitchCatalog (.number (.int 5))) false .start
      ["lfo wobble".toList, "osc lead".toList]).assignment? (pitchCatalog (.number (.int 5)))
        "  pitch wobble".toList = some ((.component "lead" "osc", "pitch"), "wobble".toList) := by
    decide +kernel
  have hinfo : (read (pitchCatalog (.number (.int 5))) false pitchText).store.nameInfo? "wobble" =
      some ⟨.global, "lfo", none⟩ := by
    decide +kernel
  have hshown : (Datum.number (.int 5)).shown.toList = ['5'] := by decide +kernel
  obtain ⟨owner, info, hassigned', hinfo', -, hsame⟩ :=
    recommended_lines (distinctKeys_pitchCatalog _) rfl hlines hlines' hmoved ⟨rfl, by rfl⟩
      ⟨by decide +kernel, by decide +kernel⟩
  rw [hassigned] at hassigned'
  cases hassigned'
  rw [hinfo] at hinfo'
  cases hinfo'
  rw [hshown] at hsame
  exact hsame.1 (by decide +kernel)

def soundData : Datum :=
  .record [("components", .record [("osc", .record [("role", .text "source"),
    ("attributes", .record [("pitch", .record [("type", .text "number"), ("default", .number (.int 5)),
      ("acceptsModulation", .list [.text "osc"])])])])])]

def soundCatalog : Catalog :=
  let pitch : AttributeSchema := ⟨"pitch", .number, .number (.int 5), .null, .null, .null, .null, .text "",
    [], .bool false, .null, [], [], ["osc"]⟩
  ⟨.ofList [("osc", ⟨"osc", .source, .ofList [("pitch", pitch)], .text ""⟩)], .empty, .empty⟩

/-- What the warning recommends is refused. -/
theorem recommended_lines_not_always_taken :
    Catalog.load ⟨"catalog.yaml", .data soundData⟩ ⟨"chords.yaml", .absent⟩ = .ok soundCatalog ∧
      (read soundCatalog false "osc wobble\nosc lead\n  pitch wobble").warnings.map
          (fun issue => (issue.line, issue.complaint.legacy?)) = [(3, some ("pitch", "wobble"))] ∧
      ((read soundCatalog false "osc wobble\nosc lead\n  pitch wobble").store.read
        (.component "lead" "osc") "pitch").modulation.map (·.isBound) = some true ∧
      ((read soundCatalog false "osc wobble\nosc lead\n  pitch 5\n    modulation wobble").store.read
        (.component "lead" "osc") "pitch").modulation.map (·.isBound) = some false ∧
      (read soundCatalog false "osc wobble\nosc lead\n  pitch 5\n    modulation wobble").errors.map
        (·.line) = [4] := by
  refine ⟨rfl, ?_, ?_, ?_, ?_⟩
  all_goals decide +kernel

end Document

end Instrument
