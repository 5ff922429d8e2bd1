import Gateway.Proofs.Evaluation.Lookup
import Gateway.Proofs.Run.Publishing

/-!
# Gateway.Proofs.Producer.WriteOnce — the first result of a name is the one

Whoever has a result may publish it, at any time and as often as it likes. What a map holds can be
read off the names that it was made for and the *history* of all publications, in the order in which
they were made: each of the names holds the first result of that name. Hence a publication counts
just if it is the first one of a name, and nothing that is read from the map ever changes.

The history is no part of the map, which forgets what did not count. It is what a statement about all
sequences of publications is generalised over: `Since` relates a map to a history, one publication adds
to the history whatever it does to the map (`Since.publish`), and everything that a reader can find out
follows from the relation. So `WriteOnce` is proved of any map with a history and not by induction field
by field.

Publishing answers whether it counted, and that answer is part of what is claimed. A map that kept the
first results but said yes to every publication would tell each of several publishers that its result
was the one.
-/

set_option autoImplicit false

namespace Gateway

namespace ResultMap

variable {m : ResultMap} {names : List String} {history : List ProducerResult}

/-! ## Step by step -/

/-- The map was made for some names and has gone through a history. -/
structure Since (m : ResultMap) (names : List String) (history : List ProducerResult) : Prop where
  fixed : m.names = (ofNames names).names
  get : ∀ name, m.get? name = if name ∈ names then history.find? (·.name = name) else none
  unique : m.Unique

theorem since_ofNames (names : List String) : (ofNames names).Since names [] where
  fixed := rfl
  get _ := (ite_self none).symm
  unique := List.nodup_nil

theorem Since.contains_iff (h : m.Since names history) {name : String} :
    m.contains name = true ↔ name ∈ names := by
  rw [contains, h.fixed, List.contains_iff_mem]
  exact List.mem_eraseDups

theorem Since.accepts_iff (h : m.Since names history) {r : ProducerResult} :
    m.accepts r = true ↔ r.name ∈ names ∧ ∀ earlier ∈ history, earlier.name ≠ r.name := by
  rw [accepts, Bool.and_eq_true_iff, h.contains_iff]
  refine and_congr_right fun hname => ?_
  rw [h.get, if_pos hname, Option.isNone_iff_eq_none, List.find?_eq_none]
  simp only [decide_eq_true_eq, ne_eq]

/-- A publication adds to the history, whether it counts or not. -/
theorem Since.publish (h : m.Since names history) (r : ProducerResult) :
    (m.publish r).Since names (history ++ [r]) where
  fixed := (names_publish m r).trans h.fixed
  unique := unique_publish h.unique r
  get name := by
    rw [get?_publish, h.get, List.find?_append, List.find?_singleton]
    by_cases heq : r.name = name
    · subst heq
      by_cases haccepts : m.accepts r = true
      · obtain ⟨hname, hfirst⟩ := h.accepts_iff.1 haccepts
        have hnone : history.find? (·.name = r.name) = none :=
          List.find?_eq_none.2 fun earlier hearlier => by simpa using hfirst earlier hearlier
        simp [haccepts, hname, hnone]
      · -- the name is not known, or has a result, which comes first
        by_cases hname : r.name ∈ names
        · have hsome : history.find? (·.name = r.name) ≠ none := fun hnone =>
            haccepts (h.accepts_iff.2 ⟨hname, fun earlier hearlier => by
              simpa using List.find?_eq_none.1 hnone earlier hearlier⟩)
          obtain ⟨first, hfirst⟩ := Option.ne_none_iff_exists'.1 hsome
          simp [haccepts, hname, hfirst]
        · simp [haccepts, hname]
    · simp [heq]

theorem Since.publishAll (h : m.Since names history) (more : List ProducerResult) :
    (m.publishAll more).Since names (history ++ more) := by
  induction more generalizing m history with
  | nil => rwa [List.append_nil]
  | cons r rest ih =>
    have hrest := ih (h.publish r)
    rwa [List.append_assoc, List.singleton_append] at hrest

/-! ## Reading the map -/

theorem Since.mem_completed (h : m.Since names history) {r : ProducerResult} :
    r ∈ m.completed ↔ ∃ name, m.get? name = some r := by
  rw [m.completed_perm.mem_iff]
  constructor
  · exact fun hr => ⟨r.name, (find?_name_eq_some h.unique).2 ⟨hr, rfl⟩⟩
  · exact fun ⟨_, hget⟩ => (mem_published_of_get? hget).1

/-- No two results that are listed have the same name, so that the order is strict. -/
theorem Since.completed_sorted (h : m.Since names history) :
    m.completed.Pairwise fun r s => r.name < s.name := by
  have hdistinct : m.completed.Pairwise fun r s => r.name ≠ s.name :=
    List.pairwise_map.1 h.unique.nodup_completed
  exact ((pairwise_completed m).and hdistinct).imp fun ⟨hle, hne⟩ => Std.lt_of_le_of_ne hle hne

/-- What there is to know of a map that was made for some names, after a history of publications. -/
structure WriteOnce (m : ResultMap) (names : List String) (history : List ProducerResult) :
    Prop where
  /-- Each of the names holds the first result of that name, and no other name holds any. -/
  get : ∀ name, m.get? name = if name ∈ names then history.find? (·.name = name) else none
  /-- What a name holds it holds for good. -/
  lasting : ∀ name r, m.get? name = some r → ∀ more, (m.publishAll more).get? name = some r
  /-- One more publication is answered by whether it is the first one of one of the names, -/
  accepts : ∀ r, m.accepts r = true ↔
    r.name ∈ names ∧ ∀ earlier ∈ history, earlier.name ≠ r.name
  /-- which then holds its result. -/
  published : ∀ r, m.accepts r = true → (m.publish r).get? r.name = some r
  /-- If it is not, nothing happens. -/
  refused : ∀ r, m.accepts r = false → m.publish r = m
  /-- The names stay the same, -/
  fixed : m.names = (ofNames names).names
  /-- and are those that the map was made for. -/
  contains : ∀ name, m.contains name = true ↔ name ∈ names
  /-- The completed results are those that names hold, -/
  completed : ∀ r, r ∈ m.completed ↔ ∃ name, m.get? name = some r
  /-- each once and in the order of the names. -/
  sorted : m.completed.Pairwise fun r s => r.name < s.name

/-- A map is written once under each of its names, whatever is published and in whichever order. -/
theorem writeOnce_publishAll (names : List String) (history : List ProducerResult) :
    ((ofNames names).publishAll history).WriteOnce names history := by
  have h : ((ofNames names).publishAll history).Since names history :=
    (since_ofNames names).publishAll history
  exact {
    get := h.get
    lasting := fun _ _ hget _ => get?_publishAll_of_some hget
    accepts := fun _ => h.accepts_iff
    published := fun r haccepts => by rw [get?_publish, haccepts, decide_eq_true rfl]; rfl
    refused := fun r hrefused => by rw [ResultMap.publish, hrefused]; rfl
    fixed := h.fixed
    contains := fun _ => h.contains_iff
    completed := fun _ => h.mem_completed
    sorted := h.completed_sorted }

end ResultMap

end Gateway
