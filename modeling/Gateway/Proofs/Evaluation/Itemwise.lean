import Gateway.Proofs.Evaluation.Failing
import Mathlib.Data.List.Forall2

/-!
# Gateway.Proofs.Evaluation.Itemwise — lists that are read item by item

What is made of a list is a list of what is made of its items, in their order. It is made if something is
made of each item, and it fails if that fails for one of them.

Much of evaluation goes through lists in this way, those of an array, of the fields of an object, of the
parts of a text, and its meaning is given by relations: an item becomes this value. So `mapM` is read as
`List.Forall₂`, in an iff, and a list computation and its meaning are compared item by item
(`forall₂_congr_mem`, where the item is known to be one of the list, as an induction over values needs
it). Fields are lists of pairs that keep their keys; `forall₂_fields` says that once for all of them.
-/

set_option autoImplicit false

namespace Gateway

section

variable {α β : Type} {R : α → β → Prop} {l : List α} {l' : List β}

theorem exists_forall₂ (h : ∀ a ∈ l, ∃ b, R a b) : ∃ l', List.Forall₂ R l l' := by
  induction l with
  | nil => exact ⟨[], .nil⟩
  | cons a l ih =>
    obtain ⟨hhead, htail⟩ := List.forall_mem_cons.1 h
    obtain ⟨b, hb⟩ := hhead
    obtain ⟨l', hl'⟩ := ih htail
    exact ⟨b :: l', .cons hb hl'⟩

theorem exists_of_mem_left (h : List.Forall₂ R l l') {a : α} (ha : a ∈ l) : ∃ b ∈ l', R a b := by
  induction h with
  | nil => cases ha
  | @cons x y l l' hxy _ ih =>
    rcases List.mem_cons.1 ha with rfl | ha
    · exact ⟨y, List.mem_cons_self, hxy⟩
    · obtain ⟨b, hb, hab⟩ := ih ha
      exact ⟨b, List.mem_cons_of_mem y hb, hab⟩

theorem exists_of_mem_right (h : List.Forall₂ R l l') {b : β} (hb : b ∈ l') : ∃ a ∈ l, R a b :=
  exists_of_mem_left h.flip hb

theorem forall₂_congr_mem {S : α → β → Prop} (h : ∀ a ∈ l, ∀ b, R a b ↔ S a b) :
    List.Forall₂ R l l' ↔ List.Forall₂ S l l' := by
  constructor
  · intro hR
    exact ((List.forall₂_and_left _ _).2 ⟨h, hR⟩).imp fun _ b hab => (hab.1 b).1 hab.2
  · intro hS
    exact ((List.forall₂_and_left _ _).2 ⟨h, hS⟩).imp fun _ b hab => (hab.1 b).2 hab.2

/-- Fields that agree in their keys and are related in their values. -/
theorem forall₂_fields {κ : Type} {fields : List (κ × α)} {fields' : List (κ × β)} :
    List.Forall₂ (fun field field' => field.1 = field'.1 ∧ R field.2 field'.2) fields fields' ↔
      fields.map Prod.fst = fields'.map Prod.fst ∧
        List.Forall₂ R (fields.map Prod.snd) (fields'.map Prod.snd) := by
  induction fields generalizing fields' with
  | nil => cases fields' <;> simp
  | cons field fields ih =>
    cases fields' with
    | nil => simp
    | cons field' fields' =>
      simp only [List.forall₂_cons, ih, List.map_cons, List.cons.injEq]
      exact and_and_and_comm

/-- Two steps for a list are two steps for each item. -/
theorem forall₂_comp {γ : Type} {S : β → γ → Prop} {l'' : List γ} :
    List.Forall₂ (fun a c => ∃ b, R a b ∧ S b c) l l'' ↔
      ∃ l', List.Forall₂ R l l' ∧ List.Forall₂ S l' l'' := by
  constructor
  · intro h
    induction h with
    | nil => exact ⟨[], .nil, .nil⟩
    | cons hac _ ih =>
      obtain ⟨b, hab, hbc⟩ := hac
      obtain ⟨l', hl, hl'⟩ := ih
      exact ⟨b :: l', .cons hab hl, .cons hbc hl'⟩
  · rintro ⟨l', hl, hl'⟩
    induction hl generalizing l'' with
    | nil =>
      cases hl'
      exact .nil
    | cons hab _ ih =>
      rcases hl' with _ | ⟨hbc, hl'⟩
      exact .cons ⟨_, hab, hbc⟩ (ih hl')

end

section

variable {ε α β : Type} {f : α → Except ε β} {l : List α}

theorem map_eq_ok {x : Except ε α} {g : α → β} {b : β} :
    x.map g = .ok b ↔ ∃ a, x = .ok a ∧ g a = b := by
  cases x with
  | ok a => simp [Except.map]
  | error e => simp [Except.map]

theorem mapM_eq_ok {bs : List β} :
    l.mapM f = .ok bs ↔ List.Forall₂ (fun a b => f a = .ok b) l bs := by
  induction l generalizing bs with
  | nil =>
    rw [List.mapM_nil, List.forall₂_nil_left_iff]
    exact ⟨fun h => (Except.ok.inj h).symm, fun h => congrArg Except.ok h.symm⟩
  | cons a l ih =>
    rw [List.mapM_cons]
    constructor
    · intro h
      obtain ⟨b, hb, h⟩ := exists_of_bind h
      obtain ⟨bs', hbs, h⟩ := exists_of_bind h
      cases h
      exact .cons hb (ih.1 hbs)
    · rintro (_ | ⟨hb, hbs⟩)
      rw [hb, ih.2 hbs]
      rfl

theorem mapM_eq_error : (∃ e, l.mapM f = .error e) ↔ ∃ a ∈ l, ∃ e, f a = .error e := by
  constructor
  · intro ⟨e, he⟩
    by_contra hnone
    have hall : ∀ a ∈ l, ∃ b, f a = .ok b := by
      intro a ha
      cases hfa : f a with
      | ok b => exact ⟨b, rfl⟩
      | error e => exact absurd ⟨a, ha, e, hfa⟩ hnone
    obtain ⟨bs, hbs⟩ := exists_forall₂ hall
    cases he.symm.trans (mapM_eq_ok.2 hbs)
  -- it may be another item that fails first, so the errors are not claimed to be the same
  · rintro ⟨a, ha, e, he⟩
    cases hl : l.mapM f with
    | error e => exact ⟨e, rfl⟩
    | ok bs =>
      obtain ⟨b, -, hb⟩ := exists_of_mem_left (mapM_eq_ok.1 hl) ha
      cases he.symm.trans hb

/-- Fields are read one by one, under the same keys. -/
theorem mapM_fields_eq_ok {κ : Type} {fields : List (κ × α)} {fields' : List (κ × β)} :
    (fields.mapM fun field => (f field.2).map (field.1, ·)) = .ok fields' ↔
      fields.map Prod.fst = fields'.map Prod.fst ∧
        List.Forall₂ (fun a b => f a = .ok b) (fields.map Prod.snd) (fields'.map Prod.snd) := by
  rw [mapM_eq_ok, ← forall₂_fields]
  refine forall₂_congr_mem fun field _ field' => ?_
  rw [map_eq_ok]
  constructor
  · rintro ⟨b, hb, rfl⟩
    exact ⟨rfl, hb⟩
  · rintro ⟨hkey, hb⟩
    exact ⟨field'.2, hb, by rw [hkey]⟩

end

end Gateway
