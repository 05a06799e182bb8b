import Instrument.Proofs.IssueOrder
import Instrument.Proofs.Nesting
import Instrument.Proofs.Past

namespace Instrument.Document

open Text

def inBodyOf (header line : List Char) : Bool :=
  saysNothing (strip line) || indentOf header < indentOf line

/-- A header and the lines of its body. -/
def withBody (header : List Char) (rest : List (List Char)) : List (List Char) :=
  header :: rest.takeWhile (inBodyOf header)

def afterBody (header : List Char) (rest : List (List Char)) : List (List Char) :=
  rest.dropWhile (inBodyOf header)

theorem withBody_append_afterBody (header : List Char) (rest : List (List Char)) :
    withBody header rest ++ afterBody header rest = header :: rest := by
  rw [withBody, afterBody, List.cons_append, List.takeWhile_append_dropWhile]

def blanked (lines : List (List Char)) : List (List Char) := lines.map fun _ => [' ']

namespace Reader

variable {c : Catalog} {strict : Bool} {r r' : Reader}

def kindOf (c : Catalog) (line : List Char) (r : Reader) : LineKind :=
  (r.ready line).classify c (indentOf line) (String.ofList (firstWord (strip line)))

theorem step_of_kindOf {line : List Char} {kind : LineKind} (hpasses : r.passes line = false)
    (hkind : r.kindOf c line = kind) :
    r.step c strict line = (r.ready line).act c strict (indentOf line) (strip line) kind :=
  hkind ▸ step_of_not_passes hpasses

theorem effect_of_not_passes (strict : Bool) {line : List Char} (hpasses : r.passes line = false) :
    Effect c strict (r.ready line) (r.kindOf c line) (r.step c strict line).store := by
  rw [step_of_not_passes hpasses]
  exact effect_dispatch ..

/-- A line is read as that of a trigger or a component, and there is an error about it. -/
def Refuses (c : Catalog) (strict : Bool) (line : List Char) (r : Reader) : Prop :=
  r.passes line = false ∧ (r.kindOf c line = .trigger ∨ r.kindOf c line = .component) ∧
    ∃ issue ∈ (r.step c strict line).issues.drop r.issues.length, issue.isError = true

instance (c : Catalog) (strict : Bool) (line : List Char) (r : Reader) :
    Decidable (r.Refuses c strict line) :=
  inferInstanceAs (Decidable (_ ∧ _ ∧ _))

/-- Two readers take a line for the same, in the same place. -/
structure ReadAlike (c : Catalog) (line : List Char) (r r' : Reader) : Prop where
  passes_eq : r.passes line = r'.passes line
  kind_eq : r.kindOf c line = r'.kindOf c line
  owner_eq : (r.ready line).owner = (r'.ready line).owner
  scope_eq : (r.ready line).scope = (r'.ready line).scope

inductive IsRefusal : Complaint → Prop
  | unknownTrigger (kind : String) : IsRefusal (.unknownTrigger kind)
  | triggerWithoutName (kind : String) : IsRefusal (.triggerWithoutName kind)
  | triggerNameOfWords (name : String) : IsRefusal (.triggerNameOfWords name)
  | componentWithoutName (kind : String) : IsRefusal (.componentWithoutName kind)
  | invalidComponentName (name : String) : IsRefusal (.invalidComponentName name)
  | componentsForbidden (trigger : String) : IsRefusal (.componentsForbidden trigger)
  | componentTaken (name : String) : IsRefusal (.componentTaken name)

theorem IsRefusal.severity_eq {complaint : Complaint} (h : IsRefusal complaint) :
    complaint.severity = .error := by
  cases h <;> rfl

theorem IsRefusal.unlisted_eq {complaint : Complaint} (h : IsRefusal complaint) :
    complaint.unlisted? = none := by
  cases h <;> rfl

inductive HeaderRead (indent : Nat) (r : Reader) : Reader → Prop
  | refused (complaint : Complaint) (notes : List Note) (hrefusal : IsRefusal complaint) :
      HeaderRead indent r (({ r with notes := r.notes ++ notes } : Reader).refuse indent complaint)
  | taken (r' : Reader)
      (hissues : ∀ issue ∈ r'.issues.drop r.issues.length, issue.isError = false) :
      HeaderRead indent r r'

theorem HeaderRead.of_refuse {indent : Nat} {complaint : Complaint}
    (hrefusal : IsRefusal complaint) : HeaderRead indent r (r.refuse indent complaint) := by
  have h : HeaderRead indent r (({ r with notes := r.notes ++ [] } : Reader).refuse indent complaint) :=
    .refused complaint [] hrefusal
  rwa [List.append_nil] at h

theorem headerRead_openTrigger (indent : Nat) (content : List Char) :
    HeaderRead indent r (r.openTrigger c indent content) := by
  simp only [openTrigger]
  split
  · exact .of_refuse (.unknownTrigger _)
  · split
    · split
      · exact .of_refuse (.triggerWithoutName _)
      · split
        · exact .of_refuse (.triggerNameOfWords _)
        · exact .taken _ (by simp [enter])
    · split
      · exact .taken _ (by simp [enter])
      · exact .taken _ (by
          simp [enter, complain, complainAt, Issue.isError, Issue.severity, Complaint.severity])

theorem headerRead_addComponent (cursor : ComponentCursor) :
    HeaderRead cursor.indent r
      (r.addComponent cursor.kind cursor.name cursor.indent (.ofHome r.home) r.home) := by
  obtain ⟨-, h⟩ | ⟨hstore, h⟩ := addComponent_cases cursor r
  · rw [h]
    exact .taken _ (by simp [follow])
  · rw [h, follow, hstore]
    exact .refused _ _ (.componentTaken _)

theorem headerRead_openComponent (indent : Nat) (content : List Char) :
    HeaderRead indent r (r.openComponent c indent content) := by
  have hadded := headerRead_addComponent (r := r) (headerComponent indent content)
  simp only [openComponent]
  split
  · exact .of_refuse (.componentWithoutName _)
  · split
    · exact .of_refuse (.invalidComponentName _)
    · split
      · next hscope =>
          rw [home, hscope] at hadded
          exact hadded
      · next frame hscope =>
          split
          · exact .of_refuse (.componentsForbidden _)
          · rw [home, hscope] at hadded
            exact hadded

/-- The reader after a line is refused is the one at which it was read, but for the complaint. -/
theorem Refuses.step_eq {line : List Char} (h : r.Refuses c strict line) :
    ∃ complaint notes, IsRefusal complaint ∧ r.step c strict line =
      { r.ready line with
        issues := r.issues ++ [⟨r.line + 1, complaint⟩]
        notes := r.notes ++ notes
        skip := some (indentOf line) } := by
  obtain ⟨hpasses, hkind, issue, hmem, herror⟩ := h
  have hready : (r.ready line).issues = r.issues ∧ (r.ready line).notes = r.notes ∧
      (r.ready line).line = r.line + 1 := by
    rw [ready, settle_eq]
    exact ⟨rfl, rfl, rfl⟩
  have hread : HeaderRead (indentOf line) (r.ready line) (r.step c strict line) := by
    rcases hkind with hkind | hkind
    · rw [step_of_kindOf hpasses hkind]
      exact headerRead_openTrigger _ _
    · rw [step_of_kindOf hpasses hkind]
      exact headerRead_openComponent _ _
  generalize r.step c strict line = after at *
  cases hread with
  | refused complaint notes hrefusal =>
      refine ⟨complaint, notes, hrefusal, ?_⟩
      simp only [refuse, complain, complainAt, hready]
  | taken _ hissues =>
      rw [hready.1] at hissues
      rw [hissues issue hmem] at herror
      contradiction

theorem readLines_append (lines more : List (List Char)) :
    readLines c strict r (lines ++ more) = readLines c strict (readLines c strict r lines) more :=
  List.foldl_append

theorem readLines_of_passes {lines : List (List Char)} (h : ∀ line ∈ lines, r.passes line = true) :
    readLines c strict r lines = { r with line := r.line + lines.length } := by
  induction lines generalizing r with
  | nil => rfl
  | cons line rest ih =>
      obtain ⟨hline, hrest⟩ := List.forall_mem_cons.1 h
      change readLines c strict (r.step c strict line) rest = _
      have hnext : ∀ line ∈ rest, ({ r with line := r.line + 1 } : Reader).passes line = true := hrest
      rw [step_of_passes hline, ih hnext, List.length_cons, Nat.add_comm rest.length, Nat.add_assoc]

theorem passes_blanked {lines : List (List Char)} : ∀ line ∈ blanked lines, r.passes line = true := by
  intro line hline
  obtain ⟨_, -, rfl⟩ := List.mem_map.1 hline
  rfl

theorem readLines_blanked (lines : List (List Char)) :
    readLines c strict r (blanked lines) = { r with line := r.line + lines.length } := by
  rw [readLines_of_passes passes_blanked, blanked, List.length_map]

/-- The reader after a header that was refused and the lines of its body. -/
def afterRefusal (header : List Char) (issue : Issue) (notes : List Note) (line : Nat)
    (r : Reader) : Reader :=
  { r.ready header with
    issues := r.issues ++ [issue]
    notes := r.notes ++ notes
    skip := some (indentOf header)
    line }

theorem Refuses.passes_body {header : List Char} (h : r.Refuses c strict header)
    (rest : List (List Char)) :
    ∀ line ∈ rest.takeWhile (inBodyOf header), (r.step c strict header).passes line = true := by
  intro line hline
  obtain ⟨complaint, notes, -, hstep⟩ := h.step_eq
  have hbody := List.all_eq_true.1 List.all_takeWhile line hline
  rw [hstep]
  exact hbody

theorem Refuses.readLines_withBody {header : List Char} (h : r.Refuses c strict header)
    (rest : List (List Char)) :
    ∃ complaint notes, IsRefusal complaint ∧ readLines c strict r (withBody header rest) =
      r.afterRefusal header ⟨r.line + 1, complaint⟩ notes (r.line + (withBody header rest).length) := by
  obtain ⟨complaint, notes, hrefusal, hstep⟩ := h.step_eq
  refine ⟨complaint, notes, hrefusal, ?_⟩
  change readLines c strict (r.step c strict header) _ = _
  rw [readLines_of_passes (h.passes_body rest), hstep]
  simp only [afterRefusal, withBody, List.length_cons, ready, settle_eq]
  congr 1
  omega

/-- Two readers that differ in their issues and notes only, one of which has an issue more. -/
def DifferInPast (issue : Issue) (r r' : Reader) : Prop :=
  ∃ (core : Reader) (issues : List Issue) (notes notes' : List Note),
    r = core.withPast (issues ++ [issue]) notes ∧ r' = core.withPast issues notes'

variable {issue : Issue}

theorem DifferInPast.readLines (h : DifferInPast issue r r') (lines : List (List Char)) :
    DifferInPast issue (readLines c strict r lines) (readLines c strict r' lines) := by
  obtain ⟨core, issues, notes, notes', rfl, rfl⟩ := h
  exact ⟨Document.readLines c strict core lines, issues, notes, notes', readLines_withPast ..,
    readLines_withPast ..⟩

theorem DifferInPast.dispatch (h : DifferInPast issue r r') (c : Catalog) (strict : Bool)
    (indent : Nat) (content : List Char) :
    DifferInPast issue (r.dispatch c strict indent content) (r'.dispatch c strict indent content) := by
  obtain ⟨core, issues, notes, notes', rfl, rfl⟩ := h
  exact ⟨core.dispatch c strict indent content, issues, notes, notes', dispatch_withPast ..,
    dispatch_withPast ..⟩

theorem DifferInPast.ready (h : DifferInPast issue r r') (line : List Char) :
    DifferInPast issue (r.ready line) (r'.ready line) := by
  obtain ⟨core, issues, notes, notes', rfl, rfl⟩ := h
  exact ⟨core.ready line, issues, notes, notes', ready_withPast .., ready_withPast ..⟩

theorem readAlike_of_ready {line : List Char} (hpasses : r.passes line = r'.passes line)
    (hready : DifferInPast issue (r.ready line) (r'.ready line)) : ReadAlike c line r r' := by
  obtain ⟨core, issues, notes, notes', h, h'⟩ := hready
  refine ⟨hpasses, ?_, ?_, ?_⟩
  · rw [kindOf, kindOf, h, h']
    rfl
  · rw [h, h']
    rfl
  · rw [h, h']
    rfl

theorem DifferInPast.readAlike (h : DifferInPast issue r r') (line : List Char) :
    ReadAlike c line r r' := by
  refine readAlike_of_ready ?_ (h.ready line)
  obtain ⟨core, issues, notes, notes', rfl, rfl⟩ := h
  rfl

theorem ready_afterRefusal (issue : Issue) {header next : List Char}
    (hheader : r.passes header = false) (hnext : inBodyOf header next = false)
    (notes : List Note) (line : Nat) :
    (r.afterRefusal header issue notes line).passes next = false ∧
      ({ r with line } : Reader).passes next = false ∧
      DifferInPast issue ((r.afterRefusal header issue notes line).ready next)
        (({ r with line } : Reader).ready next) := by
  obtain ⟨hspeaks, hdeeper⟩ := Bool.or_eq_false_iff.1 hnext
  rw [decide_eq_false_iff_not] at hdeeper
  have hindent : indentOf next ≤ indentOf header := Nat.le_of_not_lt hdeeper
  refine ⟨hnext, ?_, ?_⟩
  · have hkept : r.skips (indentOf header) = false := (Bool.or_eq_false_iff.1 hheader).2
    change (saysNothing (strip next) || r.skips (indentOf next)) = false
    rw [hspeaks, Bool.false_or]
    rw [skips] at hkept ⊢
    cases hskip : r.skip with
    | none => rfl
    | some indent =>
        simp only [hskip, Option.any_some, decide_eq_false_iff_not] at hkept ⊢
        omega
  · -- Settling for the header and then for this line is settling for this line.
    let core : Reader :=
      { r.settle (indentOf next) with line := line + 1, issues := [], notes := [] }
    refine ⟨core, r.issues, r.notes ++ notes, r.notes, ?_, ?_⟩
    · have hsettled : (r.ready header).settle (indentOf next) =
          { r.settle (indentOf next) with
            line := r.line + 1
            issues := r.issues
            notes := r.notes } := by
        rw [Reader.ready, settle_settle hindent]
        exact settle_congr _ r r.skip (r.line + 1) r.issues r.notes
      have hafter := settle_congr (indentOf next) (r.ready header) (some (indentOf header))
        (line + 1) (r.issues ++ [issue]) (r.notes ++ notes)
      rw [hsettled] at hafter
      rw [Reader.ready, afterRefusal, hafter, withPast, List.append_nil, List.append_nil]
    · have hbefore := settle_congr (indentOf next) r r.skip (line + 1) r.issues r.notes
      rw [Reader.ready, hbefore, withPast, List.append_nil, List.append_nil]

/-- Two readers bind alike what is unresolved; one has an issue more. -/
structure BindAlike (issue : Issue) (r r' : Reader) : Prop where
  store_eq : r.store = r'.store
  line_eq : r.line = r'.line
  attributeLines_eq : r.attributeLines = r'.attributeLines
  modulationLines_eq : r.modulationLines = r'.modulationLines
  inserted : Inserted issue r.issues r'.issues

theorem DifferInPast.bindAlike (h : DifferInPast issue r r') : BindAlike issue r r' := by
  obtain ⟨core, issues, notes, notes', rfl, rfl⟩ := h
  exact ⟨rfl, rfl, rfl, rfl, ⟨issues, core.issues, by simp [withPast], rfl⟩⟩

theorem BindAlike.complainAt (h : BindAlike issue r r') (line : Nat) (complaint : Complaint) :
    BindAlike issue (r.complainAt line complaint) (r'.complainAt line complaint) :=
  ⟨h.store_eq, h.line_eq, h.attributeLines_eq, h.modulationLines_eq, h.inserted.append _⟩

theorem BindAlike.write (h : BindAlike issue r r') (target : Owner × String) (a : Attribute) :
    BindAlike issue { r with store := r.store.write target.1 target.2 a }
      { r' with store := r'.store.write target.1 target.2 a } :=
  ⟨by rw [h.store_eq], h.line_eq, h.attributeLines_eq, h.modulationLines_eq, h.inserted⟩

theorem BindAlike.bindModulation (h : BindAlike issue r r') (target : Owner × String)
    (a : Attribute) : BindAlike issue (r.bindModulation c target a) (r'.bindModulation c target a) := by
  have hline : r.lineFor r.modulationLines target = r'.lineFor r'.modulationLines target := by
    rw [lineFor, lineFor, h.line_eq, h.modulationLines_eq]
  simp only [Reader.bindModulation, h.store_eq, hline]
  split
  · split
    · exact ⟨rfl, h.line_eq, h.attributeLines_eq, h.modulationLines_eq, h.inserted⟩
    · exact (h.complainAt _ _).write target a
  · exact ⟨rfl, h.line_eq, h.attributeLines_eq, h.modulationLines_eq, h.inserted⟩

theorem BindAlike.bindAttribute (h : BindAlike issue r r') (target : Owner × String) :
    BindAlike issue (r.bindAttribute c strict target) (r'.bindAttribute c strict target) := by
  have hline : r.lineFor r.attributeLines target = r'.lineFor r'.attributeLines target := by
    rw [lineFor, lineFor, h.line_eq, h.attributeLines_eq]
  simp only [Reader.bindAttribute, h.store_eq, hline]
  split
  · exact (h.complainAt _ _).bindModulation target _
  · exact h.bindModulation target _

theorem BindAlike.conclude (h : BindAlike issue r r') :
    BindAlike issue (r.conclude c strict) (r'.conclude c strict) := by
  have hbound : BindAlike issue (r.bindAll c strict) (r'.bindAll c strict) := by
    rw [bindAll, bindAll, h.store_eq]
    generalize targets r'.store = todo
    induction todo generalizing r r' with
    | nil => exact h
    | cons target rest ih => exact ih (h.bindAttribute target)
  exact ⟨hbound.store_eq, hbound.line_eq, hbound.attributeLines_eq, hbound.modulationLines_eq,
    hbound.inserted⟩

def worded (c : Catalog) (strict : Bool) : Reader → List (List Char) → Bool
  | _, [] => true
  | r, line :: rest =>
    (causeToStop? r (r.step c strict line)).isNone && worded c strict (r.step c strict line) rest

theorem isOk_follow (lines : List (List Char)) (r : Reader) (passed : List Reader) :
    (Document.follow c strict r passed lines).isOk = worded c strict r lines := by
  induction lines generalizing r passed with
  | nil => rfl
  | cons line rest ih =>
      simp only [Document.follow, worded]
      cases causeToStop? r (r.step c strict line) with
      | none => exact ih _ _
      | some cause => rfl

theorem worded_append (lines more : List (List Char)) (r : Reader) :
    worded c strict r (lines ++ more) =
      (worded c strict r lines && worded c strict (readLines c strict r lines) more) := by
  induction lines generalizing r with
  | nil => rfl
  | cons line rest ih =>
      simp only [List.cons_append, worded, ih, Bool.and_assoc]
      rfl

theorem worded_of_passes {lines : List (List Char)} (h : ∀ line ∈ lines, r.passes line = true) :
    worded c strict r lines = true := by
  induction lines generalizing r with
  | nil => rfl
  | cons line rest ih =>
      obtain ⟨hline, hrest⟩ := List.forall_mem_cons.1 h
      have hnext : ∀ line ∈ rest, ({ r with line := r.line + 1 } : Reader).passes line = true := hrest
      rw [worded, step_of_passes hline, ih hnext]
      simp [causeToStop?]

theorem causeToStop?_withPast (issues : List Issue) (notes : List Note) (before after : Reader) :
    causeToStop? (before.withPast issues notes) (after.withPast issues notes) =
      causeToStop? before after := by
  simp only [causeToStop?, withPast, List.length_append, List.drop_length_add_append]

theorem worded_withPast (issues : List Issue) (notes : List Note) (lines : List (List Char))
    (r : Reader) : worded c strict (r.withPast issues notes) lines = worded c strict r lines := by
  induction lines generalizing r with
  | nil => rfl
  | cons line rest ih => rw [worded, worded, step_withPast, causeToStop?_withPast, ih]

theorem DifferInPast.worded (h : DifferInPast issue r r') (lines : List (List Char)) :
    worded c strict r lines = Reader.worded c strict r' lines := by
  obtain ⟨core, issues, notes, notes', rfl, rfl⟩ := h
  rw [worded_withPast, worded_withPast]

theorem DifferInPast.causeToStop?_dispatch (h : DifferInPast issue r r') (indent : Nat)
    (content : List Char) :
    causeToStop? r (r.dispatch c strict indent content) =
      causeToStop? r' (r'.dispatch c strict indent content) := by
  obtain ⟨core, issues, notes, notes', rfl, rfl⟩ := h
  rw [dispatch_withPast, dispatch_withPast, causeToStop?_withPast, causeToStop?_withPast]

theorem causeToStop?_step {line : List Char} (h : r.passes line = false) :
    causeToStop? r (r.step c strict line) =
      causeToStop? (r.ready line)
        ((r.ready line).dispatch c strict (indentOf line) (strip line)) := by
  have hissues : (r.ready line).issues = r.issues := by rw [Reader.ready, settle_eq]
  rw [step_of_not_passes h, causeToStop?, causeToStop?, hissues]

theorem Refuses.worded_withBody {header : List Char} (h : r.Refuses c strict header)
    (rest : List (List Char)) : worded c strict r (withBody header rest) = true := by
  obtain ⟨complaint, notes, hrefusal, hstep⟩ := h.step_eq
  have hgoes : causeToStop? r (r.step c strict header) = none := by
    rw [hstep]
    simp [causeToStop?, hrefusal.unlisted_eq]
  rw [withBody, worded, hgoes, worded_of_passes (h.passes_body rest)]
  rfl

theorem worded_blanked (lines : List (List Char)) : worded c strict r (blanked lines) = true :=
  worded_of_passes passes_blanked

/-- What a reader that refused a header has in common with one that read blank lines instead, on the
lines that follow. -/
structure Unaffected (c : Catalog) (strict : Bool) (issue : Issue) (after : List (List Char))
    (r r' : Reader) : Prop where
  bindAlike : BindAlike issue (readLines c strict r after) (readLines c strict r' after)
  readAlike : ∀ pre line post, after = pre ++ line :: post →
    ReadAlike c line (readLines c strict r pre) (readLines c strict r' pre)
  worded_eq : worded c strict r after = worded c strict r' after

theorem unaffected_afterRefusal {header : List Char} (hheader : r.passes header = false)
    (rest : List (List Char)) (notes : List Note) (line : Nat) :
    Unaffected c strict issue (afterBody header rest) (r.afterRefusal header issue notes line)
      { r with line } := by
  cases hafter : afterBody header rest with
  | nil =>
      -- What is open differs here, but no line is read any more.
      refine ⟨⟨?_, rfl, ?_, ?_, ⟨r.issues, [], rfl, (List.append_nil _).symm⟩⟩, ?_, rfl⟩
      · exact store_settle (indentOf header) { r with line := r.line + 1 }
      · simp only [readLines, List.foldl_nil, afterRefusal, Reader.ready, settle_eq]
      · simp only [readLines, List.foldl_nil, afterRefusal, Reader.ready, settle_eq]
      · intro pre line post hsplit
        simp at hsplit
  | cons next more =>
      have hnext : inBodyOf header next = false := by
        have hhead := List.head?_dropWhile_not (inBodyOf header) rest
        rw [← afterBody, hafter] at hhead
        simpa using hhead
      obtain ⟨hpasses, hpasses', hready⟩ := ready_afterRefusal issue hheader hnext notes line
      have hstep := hready.dispatch c strict (indentOf next) (strip next)
      rw [← step_of_not_passes hpasses, ← step_of_not_passes hpasses'] at hstep
      refine ⟨(hstep.readLines more).bindAlike, ?_, ?_⟩
      · intro pre line' post hsplit
        cases pre with
        | nil =>
            obtain rfl : next = line' := (List.cons.inj hsplit).1
            exact readAlike_of_ready (hpasses.trans hpasses'.symm) hready
        | cons first pre =>
            obtain rfl : next = first := (List.cons.inj hsplit).1
            exact (hstep.readLines pre).readAlike line'
      · rw [worded, worded, hstep.worded, causeToStop?_step hpasses, causeToStop?_step hpasses',
          hready.causeToStop?_dispatch]

theorem Refuses.unaffected {header : List Char} (h : r.Refuses c strict header)
    (rest : List (List Char)) :
    ∃ complaint, IsRefusal complaint ∧
      (readLines c strict r (withBody header rest)).store = r.store ∧
      Unaffected c strict ⟨r.line + 1, complaint⟩ (afterBody header rest)
        (readLines c strict r (withBody header rest))
        (readLines c strict r (blanked (withBody header rest))) := by
  obtain ⟨complaint, notes, hrefusal, hread⟩ := h.readLines_withBody rest
  refine ⟨complaint, hrefusal, ?_, ?_⟩
  · rw [hread]
    exact store_settle (indentOf header) { r with line := r.line + 1 }
  · rw [hread, readLines_blanked]
    exact unaffected_afterRefusal h.1 rest notes _

end Reader

open Reader

theorem isOk_trace (c : Catalog) (strict : Bool) (text : String) :
    (trace c strict text).isOk = worded c strict .start (Text.lines text.toList) := by
  rw [← isOk_follow _ _ [], trace]
  cases follow c strict .start [] (Text.lines text.toList) <;> rfl

/-- A refused header and its body might as well be blank. The store and the warnings are the same,
and of the errors there is one more, on the header's line; the body leaves the store alone, each line
that follows is taken for the same and belongs to the same, and the reading comes to its end, if it
does, either way. -/
theorem refused_header_as_if_blank (c : Catalog) (strict : Bool) (text text' : String)
    (before : List (List Char)) (header : List Char) (rest : List (List Char))
    (htext : Text.lines text.toList = before ++ header :: rest)
    (htext' : Text.lines text'.toList =
      before ++ blanked (withBody header rest) ++ afterBody header rest)
    (hrefused : (readLines c strict .start before).Refuses c strict header) :
    (read c strict text).store = (read c strict text').store ∧
      (read c strict text).warnings = (read c strict text').warnings ∧
      (∃ complaint, IsRefusal complaint ∧ Inserted ⟨before.length + 1, complaint⟩
        (read c strict text).errors (read c strict text').errors) ∧
      (readLines c strict .start (before ++ withBody header rest)).store =
        (readLines c strict .start before).store ∧
      (∀ pre line post, afterBody header rest = pre ++ line :: post →
        ReadAlike c line (readLines c strict .start (before ++ withBody header rest ++ pre))
          (readLines c strict .start (before ++ blanked (withBody header rest) ++ pre))) ∧
      (trace c strict text).isOk = (trace c strict text').isOk := by
  obtain ⟨complaint, hrefusal, hstore, hunaffected⟩ := hrefused.unaffected rest
  have hline : (readLines c strict .start before).line = before.length := by
    rw [line_readLines, start, Nat.zero_add]
  rw [hline] at hunaffected
  rw [← withBody_append_afterBody header rest, ← List.append_assoc] at htext
  have hbind : BindAlike ⟨before.length + 1, complaint⟩ (read c strict text)
      (read c strict text') := by
    rw [read, read, htext, htext', readLines_append, readLines_append, readLines_append,
      readLines_append]
    exact hunaffected.bindAlike.conclude
  have herror : (⟨before.length + 1, complaint⟩ : Issue).isError = true := by
    rw [Issue.isError, Issue.severity, hrefusal.severity_eq]
    rfl
  refine ⟨hbind.store_eq, ?_, ⟨complaint, hrefusal, ?_⟩, ?_, ?_, ?_⟩
  · exact issuesWith_eq hbind.inserted (by rw [herror, Bool.not_true])
  · exact inserted_issuesWith hbind.inserted herror
  · rw [readLines_append, hstore]
  · intro pre line post hsplit
    rw [readLines_append, readLines_append, readLines_append, readLines_append]
    exact hunaffected.readAlike pre line post hsplit
  · rw [isOk_trace, isOk_trace, htext, htext', List.append_assoc, List.append_assoc,
      worded_append, worded_append, worded_append, worded_append, hrefused.worded_withBody,
      worded_blanked, hunaffected.worded_eq]

def takenText : String :=
  "note c4\n  lfo wobble\n    rate 5\nlfo wobble\n  rate 6\n# slower\nlfo slow\n  rate 7"

def untakenText : String := "note c4\n  lfo wobble\n    rate 5\n \n \n \nlfo slow\n  rate 7"

theorem taken_name_as_if_blank :
    (readLines noteCatalog false .start noteLines).Refuses noteCatalog false "lfo wobble".toList ∧
      (read noteCatalog false takenText).store = (read noteCatalog false untakenText).store ∧
      ∃ complaint, IsRefusal complaint ∧ Inserted ⟨4, complaint⟩
        (read noteCatalog false takenText).errors (read noteCatalog false untakenText).errors := by
  have hrefused : (readLines noteCatalog false .start noteLines).Refuses noteCatalog false
      "lfo wobble".toList := by
    decide +kernel
  obtain ⟨hstore, -, hissue, -⟩ := refused_header_as_if_blank noteCatalog false takenText untakenText
    noteLines "lfo wobble".toList
    ["  rate 6".toList, "# slower".toList, "lfo slow".toList, "  rate 7".toList]
    (by decide +kernel) (by decide +kernel) hrefused
  exact ⟨hrefused, hstore, hissue⟩

end Instrument.Document
