import Instrument.Proofs.Attaching

namespace Instrument

namespace Document

open Text

/-- The number of the last line at which something holds of the reader and the line. -/
def LastAt (c : Catalog) (strict : Bool) (lines : List (List Char)) (p : Reader → List Char → Prop)
    (n : Nat) : Prop :=
  Latest c strict lines (fun r line => p r line ∧ n = r.line + 1) fun r line => ¬p r line

def ReadAt (c : Catalog) (strict : Bool) (lines : List (List Char)) (n : Nat) : Prop :=
  ∃ earlier line later, lines = earlier ++ line :: later ∧ n = earlier.length + 1 ∧
    (readLines c strict .start earlier).passes line = false

section

variable {c : Catalog} {strict : Bool} {lines : List (List Char)} {p q : Reader → List Char → Prop} {n : Nat}

theorem LastAt.congr (h : LastAt c strict lines p n)
    (hpq : ∀ earlier line later, lines = earlier ++ line :: later →
      (p (readLines c strict .start earlier) line ↔ q (readLines c strict .start earlier) line)) :
    LastAt c strict lines q n := by
  obtain ⟨earlier, line, later, rfl, ⟨hhere, hn⟩, hafter⟩ := h
  refine ⟨earlier, line, later, rfl, ⟨(hpq earlier line later rfl).1 hhere, hn⟩, ?_⟩
  rintro before other rest rfl hother
  exact hafter before other rest rfl ((hpq (earlier ++ line :: before) other rest (by simp)).2 hother)

theorem LastAt.readAt (h : LastAt c strict lines p n) (hp : ∀ r line, p r line → r.passes line = false) :
    ReadAt c strict lines n := by
  obtain ⟨earlier, line, later, rfl, ⟨hhere, rfl⟩, -⟩ := h
  exact ⟨earlier, line, later, rfl, by rw [Reader.line_read], hp _ line hhere⟩

theorem ReadAt.le_length (h : ReadAt c strict lines n) : 1 ≤ n ∧ n ≤ lines.length := by
  obtain ⟨earlier, line, later, rfl, rfl, -⟩ := h
  rw [List.length_append, List.length_cons]
  omega

theorem ReadAt.snoc (h : ReadAt c strict lines n) (line : List Char) :
    ReadAt c strict (lines ++ [line]) n := by
  obtain ⟨earlier, first, later, rfl, rfl, hpasses⟩ := h
  exact ⟨earlier, first, later ++ [line], by simp, rfl, hpasses⟩

/-- Where each line writes its number down under what it gives something to, the number found is that of
the last line to do so. -/
theorem lookup_iff_lastAt {β : Type} {given : Reader → List Char → Option ((Owner × String) × β)}
    {written : Reader → AttributeLines} (hstart : written .start = [])
    (hstep : ∀ r line, written (r.step c strict line) =
      ((given r line).map fun gift => (gift.1, r.line + 1)).toList ++ written r)
    (lines : List (List Char)) {target : Owner × String} :
    (written (readLines c strict .start lines)).lookup target = some n ↔
      LastAt c strict lines (fun r line => ∃ gift, given r line = some (target, gift)) n := by
  induction lines using List.reverseRecOn with
  | nil =>
      rw [LastAt, iff_false_right not_latest_nil]
      simp [readLines, hstart]
  | append_singleton lines line ih =>
      rw [readLines_snoc, hstep, LastAt, latest_snoc, ← LastAt, ← ih]
      cases hgiven : given (readLines c strict .start lines) line with
      | none => simp
      | some gift =>
          obtain ⟨owner, gift⟩ := gift
          rw [Option.map_some, Option.toList_some, List.singleton_append, List.lookup_cons]
          by_cases hsame : target = owner
          · simp [hsame, eq_comm]
          · simp [beq_false_of_ne hsame, Ne.symm hsame]

end

namespace Reader

variable {c : Catalog} {strict : Bool} {r now : Reader} {line : List Char} {lines : List (List Char)}
  {target : Owner × String} {n : Nat}

def GivenTo {β : Type} (target : Owner × String) (given : Option ((Owner × String) × β)) : Prop :=
  ∃ who gift, given = some ((who, target.2), gift) ∧ who.bare = target.1.bare

def Gives (c : Catalog) (target : Owner × String) (r : Reader) (line : List Char) : Prop :=
  GivenTo target (r.assignment? c line)

def Attaches (c : Catalog) (target : Owner × String) (r : Reader) (line : List Char) : Prop :=
  GivenTo target (r.attachment? c line)

theorem passes_of_gives (h : Gives c target r line) : r.passes line = false := by
  obtain ⟨who, text, hgives, -⟩ := h
  exact (kindOf_of_assignment? hgives).1

theorem passes_of_attaches (h : Attaches c target r line) : r.passes line = false := by
  obtain ⟨who, name, hattaches, -⟩ := h
  exact (kindOf_of_attachment? hattaches).1

theorem Linked.knows_readLines (hkeys : DistinctKeys c) (strict : Bool) (lines : List (List Char))
    {who : Owner} (h : Linked c r) (hknown : r.store.Knows who) :
    (Document.readLines c strict r lines).store.Knows who := by
  induction lines generalizing r with
  | nil => exact hknown
  | cons line rest ih =>
      obtain ⟨kind, heffect, -⟩ := effect_step c strict r line
      rw [← store_ready line] at hknown
      exact ih (h.step hkeys line) (((h.ready line).effect heffect).2 hknown)

theorem owner_eq (hkeys : DistinctKeys c) {earlier later : List (List Char)} {who owner : Owner}
    (hwho : (readLines c strict start earlier).store.Knows who)
    (howner : (readLines c strict start (earlier ++ line :: later)).store.Knows owner)
    (hbare : who.bare = owner.bare) : who = owner := by
  have hlast := (linked_readLines hkeys strict earlier).knows_readLines hkeys strict (line :: later) hwho
  rw [← readLines_append] at hlast
  exact hlast.eq_of_bare (linked_readLines hkeys strict _).housed.coherent howner hbare

theorem lastAt_of_lookup {β : Type} {given : Reader → List Char → Option ((Owner × String) × β)}
    {written : Reader → AttributeLines} (hkeys : DistinctKeys c) (hstart : written start = [])
    (hstep : ∀ r line, written (r.step c strict line) =
      ((given r line).map fun gift => (gift.1, r.line + 1)).toList ++ written r)
    (hthere : ∀ {r line who attr gift}, Linked c r → given r line = some ((who, attr), gift) →
      r.store.Knows who)
    (hknown : (readLines c strict start lines).store.Knows target.1)
    (h : (written (readLines c strict start lines)).lookup target = some n) :
    LastAt c strict lines (fun r line => GivenTo target (given r line)) n := by
  rw [lookup_iff_lastAt hstart hstep] at h
  refine h.congr ?_
  rintro earlier line later rfl
  constructor
  · rintro ⟨gift, hgiven⟩
    exact ⟨target.1, gift, hgiven, rfl⟩
  · rintro ⟨who, gift, hgiven, hbare⟩
    have hwho := hthere (linked_readLines hkeys strict earlier) hgiven
    obtain rfl := owner_eq hkeys hwho hknown hbare
    exact ⟨gift, hgiven⟩

theorem lastAt_of_attributeLines (hkeys : DistinctKeys c)
    (hknown : (readLines c strict start lines).store.Knows target.1)
    (h : (readLines c strict start lines).attributeLines.lookup target = some n) :
    LastAt c strict lines (Gives c target) n :=
  lastAt_of_lookup hkeys rfl (fun _ line => (records_step strict line).attributeLines_eq)
    (fun hlinked hgives => (hlinked.store_of_assignment strict hgives).1) hknown h

theorem lastAt_of_modulationLines (hkeys : DistinctKeys c)
    (hknown : (readLines c strict start lines).store.Knows target.1)
    (h : (readLines c strict start lines).modulationLines.lookup target = some n) :
    LastAt c strict lines (Attaches c target) n :=
  lastAt_of_lookup hkeys rfl (fun _ line => (records_step strict line).modulationLines_eq)
    (fun hlinked hattaches => (hlinked.store_of_attachment strict hattaches).1) hknown h

theorem readAt_of_mem (c : Catalog) (strict : Bool) (lines : List (List Char)) {issue : Issue}
    (h : issue ∈ (readLines c strict start lines).issues) : ReadAt c strict lines issue.line := by
  induction lines using List.reverseRecOn with
  | nil => cases h
  | append_singleton lines line ih =>
      rw [readLines_snoc] at h
      cases hpasses : (readLines c strict start lines).passes line with
      | true =>
          rw [step_of_passes hpasses] at h
          exact (ih h).snoc line
      | false =>
          have hrecords := records_step (c := c) (r := readLines c strict start lines) strict line
          obtain ⟨complaints, -, hissues⟩ := hrecords.issues_eq
          rw [hissues, List.mem_append, List.mem_map] at h
          rcases h with hold | ⟨complaint, -, rfl⟩
          · exact (ih hold).snoc line
          · exact ⟨lines, line, [], rfl, by rw [line_read], hpasses⟩

/-- What binding an attribute finds about its value stands at the last line that gave it one, and what it
finds about its modulator at the last line that attached it one; both are found where they are looked up. -/
def BlamesSource (c : Catalog) (strict : Bool) (lines : List (List Char)) (target : Owner × String)
    (now : Reader) : Prop :=
  let bound := bindValue c strict target (now.store.read target.1 target.2) now.store
  ∃ ofValue ofModulator : List Issue,
    (now.bindAttribute c strict target).issues = now.issues ++ ofValue ++ ofModulator ∧
    ofValue.map (·.complaint) = bound.complaint.toList ∧
    (now.bindModulation c target bound.attr).issues = now.issues ++ ofModulator ∧
    (∀ issue ∈ ofValue, now.attributeLines.lookup target = some issue.line ∧
      LastAt c strict lines (Gives c target) issue.line) ∧
    ∀ issue ∈ ofModulator, now.modulationLines.lookup target = some issue.line ∧
      LastAt c strict lines (Attaches c target) issue.line

theorem blamesSource_of_binding (hkeys : DistinctKeys c) {todo : List (Owner × String)}
    (htarget : target ∈ targets (readLines c strict start lines).store)
    (h : Binding c strict (readLines c strict start lines) (target :: todo) now) :
    BlamesSource c strict lines target now := by
  have hlegible := (founded_readLines c strict lines).legible
  have hnoted := noted_readLines hkeys strict lines
  obtain ⟨cell, hcell⟩ := (mem_targets_of_legible hlegible).1 htarget
  obtain ⟨a, rfl⟩ := hlegible.readable _ _ _ hcell
  obtain ⟨hread, -⟩ := h.read_eq hlegible hcell
  let bound := bindValue c strict target (now.store.read target.1 target.2) now.store
  let ofValue : List Issue :=
    (bound.complaint.map fun complaint => ⟨now.lineFor now.attributeLines target, complaint⟩).toList
  refine ⟨ofValue, now.toldOfModulator c target bound.attr, ?_, ?_, issues_bindModulation .., ?_, ?_⟩
  · rw [issues_bindAttribute, told, ← List.append_assoc]
  · simp only [ofValue]
    cases bound.complaint <;> rfl
  · intro issue hissue
    obtain ⟨n, hn⟩ := Option.isSome_iff_exists.1 (hnoted.cell hcell)
    have hlast := lastAt_of_attributeLines hkeys hcell.knows hn
    rw [← h.lines.attributeLines_eq] at hn
    rw [Option.mem_toList, Option.map_eq_some_iff] at hissue
    obtain ⟨complaint, -, rfl⟩ := hissue
    rw [lineFor, hn]
    exact ⟨rfl, hlast⟩
  · intro issue hissue
    rw [toldOfModulator, Option.mem_toList, Option.map_eq_some_iff] at hissue
    obtain ⟨complaint, hcomplaint, rfl⟩ := hissue
    have hmodulated := modulation_of_complaint (Option.isSome_iff_exists.2 ⟨complaint, hcomplaint⟩)
    rw [hread] at hmodulated
    obtain ⟨n, hn⟩ := Option.isSome_iff_exists.1 (hnoted.modulation hcell hmodulated)
    have hlast := lastAt_of_modulationLines hkeys hcell.knows hn
    rw [← h.lines.modulationLines_eq] at hn
    rw [lineFor, hn]
    exact ⟨rfl, hlast⟩

theorem BlamesSource.readAt (h : BlamesSource c strict lines target now)
    (hnow : ∀ issue ∈ now.issues, ReadAt c strict lines issue.line) :
    ∀ issue ∈ (now.bindAttribute c strict target).issues, ReadAt c strict lines issue.line := by
  obtain ⟨ofValue, ofModulator, hissues, -, -, hvalue, hmodulator⟩ := h
  intro issue hissue
  rw [hissues, List.mem_append, List.mem_append] at hissue
  rcases hissue with (hold | hmem) | hmem
  · exact hnow issue hold
  · exact (hvalue issue hmem).2.readAt fun _ _ => passes_of_gives
  · exact (hmodulator issue hmem).2.readAt fun _ _ => passes_of_attaches

/-- While one attribute is bound after the other, all issues stand at lines that were read. -/
theorem readAt_foldl (todo done : List (Owner × String))
    (hblames : ∀ before target after, done ++ todo = before ++ target :: after →
      BlamesSource c strict lines target (before.foldl (bindAttribute c strict) r))
    (hdone : ∀ issue ∈ (done.foldl (bindAttribute c strict) r).issues, ReadAt c strict lines issue.line) :
    ∀ issue ∈ ((done ++ todo).foldl (bindAttribute c strict) r).issues, ReadAt c strict lines issue.line := by
  induction todo generalizing done with
  | nil =>
      rw [List.append_nil]
      exact hdone
  | cons target rest ih =>
      have hnext := (hblames done target rest rfl).readAt hdone
      rw [List.append_cons] at hblames ⊢
      refine ih (done ++ [target]) hblames ?_
      rw [List.foldl_append]
      exact hnext

end Reader

open Reader

/-- What binding finds stands at the last line that gave the attribute its value or its modulator, never at
the end of the document for want of one; and every issue stands at a line that was read. -/
theorem issues_stand_at_sources {c : Catalog} (hkeys : DistinctKeys c) (strict : Bool) (text : String) :
    let lines := Text.lines text.toList
    let r := readLines c strict start lines
    (∀ done target todo, targets r.store = done ++ target :: todo →
      BlamesSource c strict lines target (done.foldl (bindAttribute c strict) r)) ∧
    ∀ issue, issue ∈ (read c strict text).errors ∨ issue ∈ (read c strict text).warnings →
      1 ≤ issue.line ∧ issue.line ≤ lines.length ∧ ReadAt c strict lines issue.line := by
  intro lines r
  have hlegible : r.store.Legible c := (founded_readLines c strict lines).legible
  have hblames (done : List (Owner × String)) (target : Owner × String) (todo : List (Owner × String))
      (hsplit : targets r.store = done ++ target :: todo) :
      BlamesSource c strict lines target (done.foldl (bindAttribute c strict) r) := by
    have hbinding : Binding c strict r (targets r.store) r := binding_targets hlegible
    have htarget : target ∈ targets r.store := by simp [hsplit]
    have hdone : done ⊆ targets r.store := by simp [hsplit]
    rw [hsplit] at hbinding
    exact blamesSource_of_binding hkeys htarget (hbinding.after hlegible hdone)
  refine ⟨hblames, ?_⟩
  intro issue hissue
  have hmem : issue ∈ ((targets r.store).foldl (bindAttribute c strict) r).issues := by
    have hissues : (read c strict text).issues = (r.bindAll c strict).issues := by rw [read, conclude]
    rw [← bindAll, ← hissues]
    rcases hissue with herror | hwarning
    · exact (List.mem_filter.1 (List.mem_mergeSort.1 herror)).1
    · exact (List.mem_filter.1 (List.mem_mergeSort.1 hwarning)).1
  have hread := readAt_foldl (targets r.store) [] hblames (fun _ => readAt_of_mem c strict lines) issue hmem
  exact ⟨hread.le_length.1, hread.le_length.2, hread⟩

def ghostText : String := "osc lead\n  pitch ghost\n  pitch wisp\n    modulation nobody\nlfo slow"

theorem issues_stand_at_sources_ghostText :
    targets (readLines (pitchCatalog (.number (.int 5))) false start (Text.lines ghostText.toList)).store =
        [(.component "lead" "osc", "pitch")] ∧
      BlamesSource (pitchCatalog (.number (.int 5))) false (Text.lines ghostText.toList)
        (.component "lead" "osc", "pitch")
        (readLines (pitchCatalog (.number (.int 5))) false start (Text.lines ghostText.toList)) ∧
      (read (pitchCatalog (.number (.int 5))) false ghostText).issues.map (·.line) = [3, 4] := by
  have htargets : targets (readLines (pitchCatalog (.number (.int 5))) false start
      (Text.lines ghostText.toList)).store = [(.component "lead" "osc", "pitch")] := by
    decide +kernel
  obtain ⟨hblames, -⟩ :=
    issues_stand_at_sources (distinctKeys_pitchCatalog (.number (.int 5))) false ghostText
  have hfirst := hblames [] (.component "lead" "osc", "pitch") [] htargets
  rw [List.foldl_nil] at hfirst
  refine ⟨htargets, hfirst, ?_⟩
  decide +kernel

end Document
end Instrument
