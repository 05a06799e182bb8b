import Instrument.Proofs.Admission
import Mathlib.Data.List.Forall2

namespace Instrument

namespace Table

variable {α : Type} {R : String → Datum → α → Prop} {members : List (String × Datum)} {t : Table α}

def Lists (R : String → Datum → α → Prop) (members : List (String × Datum)) (t : Table α) : Prop :=
  List.Forall₂ (fun p q => q.1 = p.1 ∧ R p.1 p.2 q.2) members t.entries

theorem Lists.keys_eq (h : t.Lists R members) : t.keys = members.map Prod.fst := by
  obtain ⟨entries, hdistinct⟩ := t
  simp only [Lists, keys] at h ⊢
  clear hdistinct
  induction h with
  | nil => rfl
  | cons hp _ ih => rw [List.map_cons, List.map_cons, hp.1, ih]

end Table

namespace AttributeType

end AttributeType

def Datum.itemsAt (key : String) (d : Datum) : List Datum :=
  match d.field key with
  | .list items => items
  | _ => []

namespace Catalog

/-- Reading comes to something of a kind where a condition holds, and to a fault that is foreseen where
it does not. -/
inductive Decides {α : Type} (holds : Prop) (R : α → Prop) : Except LoadError α → Prop
  | reads {a} (h : holds) (ha : R a) : Decides holds R (.ok a)
  | refuses {e} (h : ¬holds) (he : e.isForeseen = true) : Decides holds R (.error e)

section Decides

variable {α β : Type} {P Q : Prop} {R : α → Prop} {S : β → Prop} {x : Except LoadError α}

theorem Decides.bind {f : α → Except LoadError β} (hx : Decides P R x)
    (hf : ∀ a, R a → Decides Q S (f a)) : Decides (P ∧ Q) S (x >>= f) := by
  cases hx with
  | refuses hP he => exact .refuses (fun h => hP h.1) he
  | @reads a hP ha =>
      change Decides (P ∧ Q) S (f a)
      cases hfa : f a with
      | ok b =>
          cases hfa ▸ hf a ha with
          | reads hQ hb => exact .reads ⟨hP, hQ⟩ hb
      | error e =>
          cases hfa ▸ hf a ha with
          | refuses hQ he => exact .refuses (fun h => hQ h.2) he

theorem Decides.congr (h : P ↔ Q) (hx : Decides P R x) : Decides Q R x := by
  rwa [propext h] at hx

theorem Decides.imp {R' : α → Prop} (h : ∀ a, R a → R' a) (hx : Decides P R x) : Decides P R' x := by
  cases hx with
  | reads hP ha => exact .reads hP (h _ ha)
  | refuses hP he => exact .refuses hP he

theorem Decides.map {g : α → β} (hx : Decides P R x) (hg : ∀ a, R a → S (g a)) :
    Decides P S (g <$> x) := by
  cases hx with
  | reads hP ha => exact .reads hP (hg _ ha)
  | refuses hP he => exact .refuses hP he

end Decides

/-- Nothing, or a record in which no key stands twice. -/
def IsMapping (d : Datum) : Prop :=
  d = .null ∨ ∃ members, d = .record members ∧ (members.map Prod.fst).Nodup

def HasList (key : String) (d : Datum) : Prop :=
  ∀ member, d.field? key = some member → ∃ items, member = .list items

theorem IsMapping.distinct {d : Datum} (h : IsMapping d) : (d.fields.map Prod.fst).Nodup := by
  rcases h with rfl | ⟨members, rfl, hdistinct⟩
  · exact .nil
  · exact hdistinct

theorem IsMapping.requireMapping_eq {d : Datum} (h : IsMapping d) (method : String) :
    requireMapping method d = .ok () := by
  rcases h with rfl | ⟨members, rfl, -⟩
  · rfl
  · rfl

theorem HasList.membersAt_eq {key : String} {d : Datum} (h : HasList key d) :
    membersAt key d = .ok (d.itemsAt key) := by
  rw [membersAt, Datum.itemsAt, Datum.field]
  cases hmember : d.field? key with
  | none => rfl
  | some member =>
      obtain ⟨items, rfl⟩ := h member hmember
      rfl

section Attribute

variable {spec : Datum} {owner name : String}

end Attribute

section Kinds

variable {spec : Datum} {kind : String}

end Kinds

section Chords

end Chords

end Catalog

end Instrument
