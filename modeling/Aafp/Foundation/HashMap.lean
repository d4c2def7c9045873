import Mathlib.Data.List.AList

/-! Hash maps as association lists, iterated in an order that nothing fixes. -/
namespace Aafp.Foundation

open List

variable {α β : Type}

structure IterationOrder (α β : Type) where
  order : List (Sigma fun _ : α => β) → List (Sigma fun _ : α => β)
  perm : ∀ entries, (order entries).Perm entries

def IterationOrder.inOrder : IterationOrder α β := ⟨id, fun _ => .refl _⟩

/-- An order that visits one entry first, if the map has it. -/
def IterationOrder.startingWith [DecidableEq α] [DecidableEq β] (first : Sigma fun _ : α => β) :
    IterationOrder α β where
  order entries := if first ∈ entries then first :: entries.erase first else entries
  perm entries := by
    split
    · exact (perm_cons_erase ‹_›).symm
    · exact .refl _

def IterationOrder.iterate (pass : IterationOrder α β) (map : AList fun _ : α => β) : List (Sigma fun _ : α => β) :=
  pass.order map.entries

def leastOf (measure : β → Nat) (least : Option α × Nat) (entry : Sigma fun _ : α => β) : Option α × Nat :=
  if measure entry.2 < least.2 then (some entry.1, measure entry.2) else least

/-- A pass for the smallest measure below `start`, and the first key that has it. -/
def scanLeast (measure : β → Nat) (start : Nat) (entries : List (Sigma fun _ : α => β)) : Option α × Nat :=
  entries.foldl (leastOf measure) (none, start)

private theorem foldl_leastOf (measure : β → Nat) (entries : List (Sigma fun _ : α => β)) (least : Option α × Nat) :
    (entries.foldl (leastOf measure) least).2 ≤ least.2 ∧
      (∀ entry ∈ entries, (entries.foldl (leastOf measure) least).2 ≤ measure entry.2) ∧
      (entries.foldl (leastOf measure) least = least ∨
        ∃ entry ∈ entries, entries.foldl (leastOf measure) least = (some entry.1, measure entry.2)) := by
  induction entries generalizing least with
  | nil => simp
  | cons first entries ih =>
    obtain ⟨below, each, found⟩ := ih (leastOf measure least first)
    have step : (leastOf measure least first).2 ≤ least.2 ∧
        (leastOf measure least first).2 ≤ measure first.2 ∧ (leastOf measure least first = least ∨
          leastOf measure least first = (some first.1, measure first.2)) := by
      unfold leastOf
      split
      · exact ⟨Nat.le_of_lt ‹_›, Nat.le_refl _, .inr rfl⟩
      · exact ⟨Nat.le_refl _, Nat.not_lt.mp ‹_›, .inl rfl⟩
    refine ⟨Nat.le_trans below step.1, forall_mem_cons.mpr ⟨Nat.le_trans below step.2.1, each⟩, ?_⟩
    rcases found with same | ⟨entry, mem, same⟩
    · rcases step.2.2 with kept | taken
      · exact .inl (same.trans kept)
      · exact .inr ⟨first, mem_cons_self, same.trans taken⟩
    · exact .inr ⟨entry, mem_cons_of_mem _ mem, same⟩

theorem scanLeast_found {measure : β → Nat} {entries : List (Sigma fun _ : α => β)}
    (found : (scanLeast measure start entries).1 = some key) :
    ∃ value, ⟨key, value⟩ ∈ entries ∧ ∀ entry ∈ entries, measure value ≤ measure entry.2 := by
  obtain ⟨-, each, same | ⟨entry, mem, same⟩⟩ := foldl_leastOf measure entries (none, start)
  · rw [scanLeast, same] at found
    cases found
  · rw [scanLeast, same] at found
    cases found
    rw [same] at each
    exact ⟨entry.2, mem, each⟩

theorem scanLeast_eq_none_iff {measure : β → Nat} :
    (scanLeast measure start entries).1 = none ↔ ∀ entry ∈ entries, start ≤ measure entry.2 := by
  unfold scanLeast
  induction entries with
  | nil => simp
  | cons first entries ih =>
    rw [foldl_cons]
    by_cases below : measure first.2 < start
    · -- what is found once is only replaced
      obtain ⟨-, -, same | ⟨entry, -, same⟩⟩ := foldl_leastOf measure entries
        (leastOf measure (none, start) first)
      · rw [same]
        simp [leastOf, below, Nat.not_le.mpr below]
      · rw [same]
        simp [Nat.not_le.mpr below]
    · simp only [leastOf, below, if_false, ih]
      simp [Nat.not_lt.mp below]

variable [DecidableEq α]

theorem mem_iterate {pass : IterationOrder α β} {map : AList fun _ : α => β} :
    entry ∈ pass.iterate map ↔ map.lookup entry.1 = some entry.2 := by
  rw [IterationOrder.iterate, (pass.perm map.entries).mem_iff]
  exact AList.mem_lookup_iff.symm

theorem mem_iff_lookup {map : AList fun _ : α => β} : key ∈ map ↔ ∃ value, map.lookup key = some value := by
  rw [← AList.lookup_isSome, Option.isSome_iff_exists]

theorem forall_lookup_empty {Holds : α → β → Prop} (key : α) (value : β)
    (found : (∅ : AList fun _ : α => β).lookup key = some value) : Holds key value := by
  simp at found

theorem lookup_insert_ite {map : AList fun _ : α => β} {added key : α} :
    (map.insert added value).lookup key = if added = key then some value else map.lookup key := by
  split
  next same => exact same ▸ AList.lookup_insert map
  next apart => exact AList.lookup_insert_ne (Ne.symm apart)

theorem lookup_insert_eq_some {map : AList fun _ : α => β} {added key : α} :
    (map.insert added value).lookup key = some found ↔
      (added = key ∧ value = found) ∨ (added ≠ key ∧ map.lookup key = some found) := by
  rw [lookup_insert_ite]
  split <;> simp [*]

theorem lookup_of_lookup_erase {map : AList fun _ : α => β} {erased key : α}
    (found : (map.erase erased).lookup key = some value) : map.lookup key = some value := by
  by_cases same : key = erased
  · subst same
    simp at found
  · rwa [AList.lookup_erase_ne same] at found

theorem forall_lookup_insert {Holds : α → β → Prop} {map : AList fun _ : α => β} {added : α}
    (each : ∀ key value, map.lookup key = some value → Holds key value) (holds : Holds added value) :
    ∀ key other, (map.insert added value).lookup key = some other → Holds key other := by
  intro key other found
  rcases lookup_insert_eq_some.mp found with ⟨rfl, rfl⟩ | ⟨-, before⟩
  · exact holds
  · exact each key other before

/-- Each value of a map is still there, or has gone on to another one. -/
def Extends (Follows : β → β → Prop) (before after : AList fun _ : α => β) : Prop :=
  ∀ key value, before.lookup key = some value → ∃ later, after.lookup key = some later ∧ Follows value later

theorem Extends.refl {Follows : β → β → Prop} (each : ∀ value, Follows value value) (map : AList fun _ : α => β) :
    Extends Follows map map :=
  fun _ value found => ⟨value, found, each value⟩

theorem Extends.trans {Follows : β → β → Prop} {before middle after : AList fun _ : α => β}
    (joins : ∀ {value between later}, Follows value between → Follows between later → Follows value later)
    (first : Extends Follows before middle) (second : Extends Follows middle after) : Extends Follows before after := by
  intro key value found
  obtain ⟨between, stored, follows⟩ := first key value found
  obtain ⟨later, kept, further⟩ := second key between stored
  exact ⟨later, kept, joins follows further⟩

theorem extends_insert_iff {Follows : β → β → Prop} {map : AList fun _ : α => β} {key : α}
    (each : ∀ value, Follows value value) :
    Extends Follows map (map.insert key later) ↔ ∀ value, map.lookup key = some value → Follows value later := by
  constructor
  · intro kept value found
    obtain ⟨other, same, follows⟩ := kept key value found
    rw [AList.lookup_insert] at same
    cases same
    exact follows
  · intro follows other value found
    by_cases same : other = key
    · subst same
      exact ⟨later, AList.lookup_insert _, follows value found⟩
    · exact ⟨value, by rwa [AList.lookup_insert_ne same], each value⟩

section

variable {map : AList fun _ : α => β}

theorem entries_perm_erase (found : map.lookup key = some value) :
    map.entries.Perm (⟨key, value⟩ :: (map.erase key).entries) := by
  have there : key ∈ map.entries.keys := AList.mem_keys.mp (mem_iff_lookup.mpr ⟨value, found⟩)
  obtain ⟨stored, before, after, -, whole, rest⟩ := exists_of_kerase there
  have same : stored = value := by
    have mem : ⟨key, stored⟩ ∈ map.entries := by simp [whole]
    exact Option.some.inj ((AList.mem_lookup_iff.mpr mem).symm.trans found)
  have erased : (map.erase key).entries = before ++ after := rest
  rw [erased, whole, same]
  exact perm_middle

theorem length_erase_add_one (there : key ∈ map) : (map.erase key).entries.length + 1 = map.entries.length := by
  obtain ⟨value, found⟩ := mem_iff_lookup.mp there
  exact (entries_perm_erase found).length_eq.symm

theorem length_erase_of_notMem (absent : key ∉ map) : (map.erase key).entries.length = map.entries.length := by
  have same : (map.erase key).entries = map.entries := kerase_of_notMem_keys (AList.mem_keys.not.mp absent)
  rw [same]

theorem length_insert_of_mem (there : key ∈ map) (value : β) :
    (map.insert key value).entries.length = map.entries.length := by
  exact length_erase_add_one there

theorem length_insert_of_notMem (absent : key ∉ map) (value : β) :
    (map.insert key value).entries.length = map.entries.length + 1 := by
  rw [AList.entries_insert_of_notMem absent, length_cons]

end

/-- A map whose entries are all in another one is at most as large, and has the same
entries if it is as large. -/
theorem length_le_of_lookup_sub {part map : AList fun _ : α => β}
    (sub : ∀ key value, part.lookup key = some value → map.lookup key = some value) :
    part.entries.length ≤ map.entries.length ∧
      (map.entries.length ≤ part.entries.length → ∀ key, part.lookup key = map.lookup key) := by
  have keysSub : part.keys ⊆ map.keys := by
    intro key mem
    obtain ⟨value, found⟩ := mem_iff_lookup.mp (AList.mem_keys.mpr mem)
    exact AList.mem_keys.mp (mem_iff_lookup.mpr ⟨value, sub key value found⟩)
  have within := subperm_of_subset part.keys_nodup keysSub
  have lengths : part.keys.length = part.entries.length ∧ map.keys.length = map.entries.length :=
    ⟨length_map _, length_map _⟩
  refine ⟨by rw [← lengths.1, ← lengths.2]; exact within.length_le, fun large key => ?_⟩
  rw [← lengths.1, ← lengths.2] at large
  have same := within.perm_of_length_le large
  cases found : part.lookup key with
  | some value => exact (sub key value found).symm
  | none =>
    rw [eq_comm, AList.lookup_eq_none, AList.mem_keys, ← same.mem_iff]
    exact AList.lookup_eq_none.mp found

/-- `==` on hash maps: as many entries, and each entry of the first is found in the second. -/
def mapEq [DecidableEq β] (first second : AList fun _ : α => β) : Bool :=
  first.entries.length == second.entries.length &&
    first.entries.all fun entry => second.lookup entry.1 == some entry.2

theorem mapEq_iff [DecidableEq β] {first second : AList fun _ : α => β} :
    mapEq first second = true ↔ ∀ key, first.lookup key = second.lookup key := by
  simp only [mapEq, Bool.and_eq_true, beq_iff_eq, all_eq_true]
  constructor
  · intro ⟨length, each⟩
    refine (length_le_of_lookup_sub fun key value found => ?_).2 (Nat.le_of_eq length.symm)
    exact each ⟨key, value⟩ (AList.mem_lookup_iff.mp found)
  · intro same
    refine ⟨Nat.le_antisymm ?_ ?_, fun entry mem => ?_⟩
    · exact (length_le_of_lookup_sub fun key value found => same key ▸ found).1
    · exact (length_le_of_lookup_sub fun key value found => (same key).symm ▸ found).1
    · rw [← same]
      exact AList.mem_lookup_iff.mpr mem

def eraseAll (map : AList fun _ : α => β) (keys : List α) : AList fun _ : α => β :=
  keys.foldl (fun map key => map.erase key) map

theorem lookup_eraseAll (map : AList fun _ : α => β) (keys : List α) (key : α) :
    (eraseAll map keys).lookup key = if key ∈ keys then none else map.lookup key := by
  unfold eraseAll
  induction keys generalizing map with
  | nil => simp
  | cons first keys ih =>
    rw [foldl_cons, ih]
    by_cases same : key = first
    · subst same
      simp
    · simp [same, AList.lookup_erase_ne same]

def totalOf (measure : β → Nat) : List (Sigma fun _ : α => β) → Nat
  | [] => 0
  | entry :: entries => measure entry.2 + totalOf measure entries

omit [DecidableEq α] in
theorem totalOf_perm (measure : β → Nat) (same : first.Perm second) :
    totalOf measure first = totalOf measure second := by
  induction same with
  | nil => rfl
  | cons entry _ ih => rw [totalOf, totalOf, ih]
  | swap left right entries =>
    simp only [totalOf]
    omega
  | trans _ _ ihFirst ihSecond => exact ihFirst.trans ihSecond

def total (measure : β → Nat) (map : AList fun _ : α => β) : Nat := totalOf measure map.entries

theorem total_erase {measure : β → Nat} {map : AList fun _ : α => β} {value : β}
    (found : map.lookup key = some value) : total measure (map.erase key) + measure value = total measure map := by
  rw [total, total, totalOf_perm measure (entries_perm_erase found), totalOf, Nat.add_comm]

theorem total_insert_of_mem {measure : β → Nat} {map : AList fun _ : α => β} (found : map.lookup key = some value) :
    total measure (map.insert key changed) + measure value = total measure map + measure changed := by
  have inserted : total measure (map.insert key changed) = measure changed + total measure (map.erase key) := by
    rfl
  have erased := @total_erase _ _ _ _ measure map value found
  omega

theorem total_insert_of_notMem {measure : β → Nat} {map : AList fun _ : α => β}
    (absent : key ∉ map) : total measure (map.insert key value) = total measure map + measure value := by
  simp only [total, AList.entries_insert_of_notMem absent, totalOf]
  omega

def mapValues {γ : Type} (change : β → γ) (map : AList fun _ : α => β) : AList fun _ : α => γ :=
  ⟨map.entries.map (.map id fun _ => change), map.nodupKeys.map₂ (fun _ => change) _⟩

@[simp] theorem lookup_mapValues (change : β → γ) (map : AList fun _ : α => β) (key : α) :
    (mapValues change map).lookup key = (map.lookup key).map change :=
  dlookup_map₂ key

def retain (keep : β → Bool) (map : AList fun _ : α => β) : AList fun _ : α => β :=
  ⟨map.entries.filter fun entry => keep entry.2, map.nodupKeys.sublist filter_sublist⟩

theorem lookup_retain_eq_some {keep : β → Bool} {map : AList fun _ : α => β} {key : α} :
    (retain keep map).lookup key = some value ↔ map.lookup key = some value ∧ keep value := by
  have inner := AList.mem_lookup_iff (s := retain keep map) (a := key) (b := value)
  have outer := AList.mem_lookup_iff (s := map) (a := key) (b := value)
  rw [Option.mem_def] at inner outer
  rw [inner, outer, retain, mem_filter]

theorem lookup_retain (keep : β → Bool) (map : AList fun _ : α => β) (key : α) :
    (retain keep map).lookup key = (map.lookup key).filter keep := by
  apply Option.ext
  intro value
  rw [lookup_retain_eq_some, Option.filter_eq_some_iff]

abbrev HashSet (α : Type) := AList fun _ : α => Unit

def HashSet.insertAll (set : HashSet α) (items : List α) : HashSet α :=
  items.foldl (fun set item => set.insert item ()) set

@[simp] theorem HashSet.mem_insertAll {set : HashSet α} {items : List α} :
    item ∈ set.insertAll items ↔ item ∈ set ∨ item ∈ items := by
  unfold insertAll
  induction items generalizing set with
  | nil => simp
  | cons first items ih =>
    rw [foldl_cons, ih, AList.mem_insert, mem_cons]
    tauto

def IterationOrder.members (pass : IterationOrder α Unit) (set : HashSet α) : List α :=
  (pass.iterate set).map Sigma.fst

omit [DecidableEq α] in
@[simp] theorem IterationOrder.mem_members {pass : IterationOrder α Unit} {set : HashSet α} :
    item ∈ pass.members set ↔ item ∈ set := by
  rw [members, iterate, ((pass.perm set.entries).map Sigma.fst).mem_iff]
  rfl

omit [DecidableEq α] in
theorem IterationOrder.nodup_members {pass : IterationOrder α Unit} {set : HashSet α} :
    (pass.members set).Nodup := by
  rw [members, iterate, ((pass.perm set.entries).map Sigma.fst).nodup_iff]
  exact set.keys_nodup

section Keyed

variable [DecidableEq κ]

theorem find?_key_eq_some_iff {entries : List (κ × γ)} (distinct : (entries.map Prod.fst).Nodup) :
    entries.find? (fun entry => entry.1 == key) = some found ↔ found ∈ entries ∧ found.1 = key := by
  constructor
  · intro here
    exact ⟨mem_of_find?_eq_some here, by simpa using find?_some here⟩
  · rintro ⟨mem, rfl⟩
    obtain ⟨other, here⟩ : ∃ other, entries.find? (fun entry => entry.1 == found.1) = some other :=
      Option.isSome_iff_exists.mp (find?_isSome.mpr ⟨found, mem, by simp⟩)
    have same : other.1 = found.1 := by simpa using find?_some here
    rw [here, inj_on_of_nodup_map distinct (mem_of_find?_eq_some here) mem same]

theorem find?_key_perm {first second : List (κ × γ)} (distinct : (first.map Prod.fst).Nodup)
    (perm : first.Perm second) (key : κ) :
    first.find? (fun entry => entry.1 == key) = second.find? (fun entry => entry.1 == key) := by
  ext found
  have otherDistinct := (perm.map Prod.fst).nodup_iff.mp distinct
  simp only [find?_key_eq_some_iff distinct, find?_key_eq_some_iff otherDistinct, perm.mem_iff]

end Keyed

end Aafp.Foundation
