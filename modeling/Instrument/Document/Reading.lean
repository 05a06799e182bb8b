import Instrument.Document.Reader
import Instrument.Catalog.Loading
import Instrument.Text.Lines

namespace Instrument.Document

namespace Reader

def componentTargets (tables : ComponentTables) : List (Owner × String) :=
  tables.values.flatMap fun table => table.values.flatMap fun c =>
    c.attributes.keys.map fun attr => (.component c.name c.kind, attr)

def triggerTargets (t : Trigger) : List (Owner × String) :=
  componentTargets t.components ++ t.attributes.keys.map fun attr => (.trigger t.key t.kind, attr)

/-- Every attribute in a store: of the global components, then trigger by trigger those of its
components and its own. -/
def targets (s : Store) : List (Owner × String) :=
  componentTargets s.components ++ s.triggers.values.flatMap triggerTargets

/-- The line on which something was last written for an attribute, or the line last read. -/
def lineFor (lines : AttributeLines) (target : Owner × String) (r : Reader) : Nat :=
  (lines.lookup target).getD r.line

def bindValue (c : Catalog) (strict : Bool) (target : Owner × String) (a : Attribute) (s : Store) :
    Bound :=
  match a.value with
  | some (.unresolved (.text word)) =>
    match schemaOf c target.1 target.2 with
    | none => .clean (a.withValue (some (.literal (.text word))))
    | some schema => bindWord strict target.1 target.2 schema a word (s.nameInfo? word)
  | _ => .clean a

def bindModulation (c : Catalog) (target : Owner × String) (a : Attribute) (r : Reader) : Reader :=
  let write (a : Attribute) (r : Reader) : Reader :=
    { r with store := r.store.write target.1 target.2 a }
  match a.modulation with
  | some ⟨.text name, .null⟩ =>
    match bindModulator c.modulatorKinds target.2 (schemaOf c target.1 target.2) name
        (r.store.nameInfo? name) with
    | .ok kind =>
      write (a.withModulation (some (.bound name kind)))
        { r with notes := r.notes ++ [.modulatorBound name kind target.2] }
    | .error complaint => write a (r.complainAt (r.lineFor r.modulationLines target) complaint)
  | _ => write a r

def bindAttribute (c : Catalog) (strict : Bool) (r : Reader) (target : Owner × String) : Reader :=
  let bound := bindValue c strict target (r.store.read target.1 target.2) r.store
  let told := match bound.complaint with
    | some complaint => r.complainAt (r.lineFor r.attributeLines target) complaint
    | none => r
  told.bindModulation c target bound.attr

def bindAll (c : Catalog) (strict : Bool) (r : Reader) : Reader :=
  (targets r.store).foldl (bindAttribute c strict) r

/-- The issues for which a test holds, by line, those of one line in the order of their finding. -/
def issuesWith (p : Issue → Bool) (r : Reader) : List Issue :=
  (r.issues.filter p).mergeSort fun a b => a.line ≤ b.line

def errors (r : Reader) : List Issue := r.issuesWith (·.isError)

def warnings (r : Reader) : List Issue := r.issuesWith (!·.isError)

def succeeds (r : Reader) : Bool := !r.issues.any (·.isError)

/-- Binds what the lines leave unresolved, and notes how much was read. -/
def conclude (c : Catalog) (strict : Bool) (r : Reader) : Reader :=
  let bound := r.bindAll c strict
  { bound with notes := bound.notes ++
      [.documentRead bound.line bound.errors.length bound.warnings.length] }

end Reader

def readLines (c : Catalog) (strict : Bool) (r : Reader) (lines : List (List Char)) : Reader :=
  lines.foldl (Reader.step c strict) r

def read (c : Catalog) (strict : Bool) (text : String) : Reader :=
  (readLines c strict .start (Text.lines text.toList)).conclude c strict

/-- A reading that ends at a line about which there is a complaint without a wording. -/
structure Interruption where
  cause : UnlistedValue
  reader : Reader

def causeToStop? (before after : Reader) : Option UnlistedValue :=
  (after.issues.drop before.issues.length).findSome? (·.complaint.unlisted?)

/-- Reads lines up to the first without a wording for its complaints, and returns the readers after
each line, the last first. -/
def follow (c : Catalog) (strict : Bool) (r : Reader) (passed : List Reader) :
    List (List Char) → Except Interruption (List Reader)
  | [] => .ok passed
  | line :: rest =>
    let after := r.step c strict line
    match causeToStop? r after with
    | some cause => .error ⟨cause, r⟩
    | none => follow c strict after (after :: passed) rest

structure Reading where
  states : List Reader
  final : Reader

def trace (c : Catalog) (strict : Bool) (text : String) : Except Interruption Reading := do
  let passed ← follow c strict .start [] (Text.lines text.toList)
  return ⟨passed.reverse, (passed.head?.getD .start).conclude c strict⟩

theorem head?_follow {c : Catalog} {strict : Bool} {r : Reader} {passed : List Reader}
    {lines : List (List Char)} {all : List Reader} (hr : passed.head?.getD .start = r)
    (h : follow c strict r passed lines = .ok all) :
    all.head?.getD .start = readLines c strict r lines := by
  induction lines generalizing r passed with
  | nil =>
    simp only [follow, Except.ok.injEq] at h
    subst h
    exact hr
  | cons line rest ih =>
    simp only [follow] at h
    split at h
    · simp at h
    · exact ih rfl h

/-- Keeping the readers after each line does not change how a document is read. -/
theorem final_trace {c : Catalog} {strict : Bool} {text : String} {reading : Reading}
    (h : trace c strict text = .ok reading) : reading.final = read c strict text := by
  simp only [trace] at h
  cases hall : follow c strict .start [] (Text.lines text.toList) with
  | error e => simp [hall, bind, Except.bind] at h
  | ok all =>
    simp only [hall, bind, Except.bind, pure, Except.pure, Except.ok.injEq] at h
    subst h
    simp only [read, @head?_follow c strict .start [] _ all rfl hall]

/-- A catalog that documents can be read by: one with kinds of component. -/
def usable (c : Catalog) : Except Catalog.LoadError Catalog :=
  if c.components.isEmpty then .error .noComponents else .ok c

/-- The issues of a reading as a report lists them: by line, errors before warnings on each. -/
def report (r : Reader) : List Issue :=
  (r.errors ++ r.warnings).mergeSort fun a b => a.line ≤ b.line

end Instrument.Document
