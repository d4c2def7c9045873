import Aafp.Foundation.HashMap
import Aafp.Foundation.Machine

/-! Machines that take in items under a key and hold the last item of each key, unless
they drop it, and when the items of each key follow one another. -/
namespace Aafp.Foundation

open List Option

variable {Item Key : Type}

def Ordered (key : Item → Key) (follows : Item → Item → Prop) (items : List Item) : Prop :=
  items.Pairwise fun earlier later => key earlier = key later → follows earlier later

section Last

variable [DecidableEq Key] {key : Item → Key} {follows : Item → Item → Prop}

def lastWith (key : Item → Key) (wanted : Key) (items : List Item) : Option Item :=
  items.reverse.find? fun item => key item = wanted

theorem lastWith_concat (items : List Item) (item : Item) (wanted : Key) : lastWith key wanted (items ++ [item]) =
      if key item = wanted then some item else lastWith key wanted items := by
  simp only [lastWith, reverse_append, reverse_singleton, singleton_append, find?_cons]
  split <;> simp_all

theorem lastWith_of_mem (mem : item ∈ items) (ordered : Ordered key follows items) :
    ∃ last, lastWith key (key item) items = some last ∧ (item = last ∨ follows item last) := by
  induction items using reverseRecOn with
  | nil => cases mem
  | append_singleton items newest ih =>
    obtain ⟨before, -, after⟩ := pairwise_append.mp ordered
    rw [lastWith_concat]
    split
    next same =>
      refine ⟨newest, rfl, ?_⟩
      rcases mem_append.mp mem with earlier | latest
      · exact .inr (after item earlier newest (mem_singleton_self _) same.symm)
      · exact .inl (mem_singleton.mp latest)
    next same =>
      rcases mem_append.mp mem with earlier | latest
      · exact ih earlier before
      · exact absurd (congrArg key (mem_singleton.mp latest).symm) same

theorem exists_lastWith (key : Item → Key) (mem : item ∈ items) :
    ∃ last, lastWith key (key item) items = some last := by
  have unordered : Ordered key (fun _ _ => True) items := pairwise_of_forall fun _ _ _ => trivial
  obtain ⟨last, found, -⟩ := lastWith_of_mem mem unordered
  exact ⟨last, found⟩

theorem mem_of_lastWith (found : lastWith key wanted items = some item) : item ∈ items ∧ key item = wanted := by
  refine ⟨mem_reverse.mp (mem_of_find?_eq_some found), ?_⟩
  simpa using find?_some found

theorem lookup_foldl_insert (entries : List (Key × Item)) (wanted : Key) :
    (entries.foldl (fun map entry => map.insert entry.1 entry.2) (∅ : AList fun _ : Key => Item)).lookup
      wanted = (lastWith Prod.fst wanted entries).map Prod.snd := by
  induction entries using reverseRecOn with
  | nil => rfl
  | append_singleton entries newest ih =>
    rw [foldl_append, foldl_cons, foldl_nil, lastWith_concat, lookup_insert_ite, ih]
    split <;> rfl

theorem ordered_concat_iff (trans : ∀ first second third,
    follows first second → follows second third → follows first third) :
    Ordered key follows (items ++ [item]) ↔ Ordered key follows items ∧
      ∀ last, lastWith key (key item) items = some last → follows last item := by
  rw [Ordered, pairwise_append]
  constructor
  · intro ⟨before, _, after⟩
    refine ⟨before, ?_⟩
    intro last found
    obtain ⟨mem, same⟩ := mem_of_lastWith found
    exact after last mem item (mem_singleton_self _) same
  · intro ⟨before, newest⟩
    refine ⟨before, pairwise_singleton _ _, ?_⟩
    intro earlier mem later latest same
    rw [mem_singleton.mp latest] at same ⊢
    obtain ⟨last, found, position⟩ := lastWith_of_mem mem before
    rw [same] at found
    rcases position with rfl | follows
    · exact newest _ found
    · exact trans earlier last item follows (newest last found)

end Last

/-- A machine as a store: the table that it keeps, the item an input makes it take in, and the
answer by which this is seen. -/
structure Store (machine : Machine Input Output State) (Item Key : Type) [DecidableEq Key] where
  key : Item → Key
  table : State → AList fun _ : Key => Item
  takes : State → Input → Option Item
  taken : Input × Output → Option Item
  taken_step : ∀ state input, taken (input, (machine.step state input).1) = takes state input
  replaces : ∀ state input item, takes state input = some item →
    table (machine.step state input).2 = (table state).insert (key item) item
  drops : ∀ state input, takes state input = none → ∀ wanted item,
    (table (machine.step state input).2).lookup wanted = some item →
      (table state).lookup wanted = some item

namespace Store

variable [DecidableEq Key] {machine : Machine Input Output State}

def accepted (store : Store machine Item Key) (log : List (Input × Output)) : List Item :=
  log.filterMap store.taken

/-- An item that is taken in follows the one that the table holds, or, if this was
dropped, the last one taken in. -/
def Follows (store : Store machine Item Key) (follows : Item → Item → Prop) (past : List (Input × Output))
    (state : State) (input : Input) : Prop :=
  ∀ item, store.takes state input = some item →
    match (store.table state).lookup (store.key item) with
    | some held => follows held item
    | none => ∀ last, lastWith store.key (store.key item) (store.accepted past) = some last →
        follows last item

variable {follows : Item → Item → Prop} {past : List (Input × Output)}
variable (store : Store machine Item Key)

theorem follows_iff [Decidable admits]
    (takes : store.takes state input = if admits then some item else none) :
    store.Follows follows past state input ↔ (admits →
      match (store.table state).lookup (store.key item) with
      | some held => follows held item
      | none => ∀ last, lastWith store.key (store.key item) (store.accepted past) = some last →
          follows last item) := by
  simp only [Follows, takes, ite_none_right_eq_some, some.injEq, and_imp]
  constructor
  · intro each admitted
    exact each item admitted rfl
  · intro holds other admitted same
    subst same
    exact holds admitted

theorem follows_of_takes_none (takes : store.takes state input = none) : store.Follows follows past state input := by
  intro item taken
  rw [takes] at taken
  cases taken

/-- The table holds the last item of a key, if any. -/
def HoldsLast (store : Store machine Item Key) (past : List (Input × Output)) (state : State) : Prop :=
  ∀ wanted item, (store.table state).lookup wanted = some item →
    lastWith store.key wanted (store.accepted past) = some item

theorem accepted_concat (past : List (Input × Output)) (state : State)
    (input : Input) : store.accepted (past ++ [(input, (machine.step state input).1)]) =
      store.accepted past ++ (store.takes state input).toList := by
  rw [accepted, accepted, ← store.taken_step]
  cases taken : store.taken (input, (machine.step state input).1) with
  | none => simp [taken]
  | some item => simp [taken]

theorem holdsLast_step (holds : store.HoldsLast past state) (input : Input) :
    store.HoldsLast (past ++ [(input, (machine.step state input).1)]) (machine.step state input).2 := by
  intro wanted item found
  rw [accepted_concat]
  cases takes : store.takes state input with
  | none =>
    rw [toList_none, append_nil]
    exact holds wanted item (store.drops state input takes wanted item found)
  | some newest =>
    rw [store.replaces state input newest takes] at found
    rw [toList_some, lastWith_concat]
    rcases lookup_insert_eq_some.mp found with ⟨same, rfl⟩ | ⟨other, before⟩
    · exact if_pos same
    · rw [if_neg other]
      exact holds wanted item before

/-- The items of each key follow one another exactly if each follows what was held, or last taken
in, under its key. -/
theorem ordered_iff (start : State) (empty : store.table start = ∅)
    (trans : ∀ first second third, follows first second → follows second third → follows first third)
    (inputs : List Input) :
    machine.Throughout start (fun past _ => Ordered store.key follows (store.accepted past)) inputs ↔
      machine.Meets start (store.Follows follows) inputs := by
  apply @Machine.throughout_iff_meets _ _ _ machine start store.HoldsLast
  · intro wanted item found
    rw [empty] at found
    simp at found
  · exact List.Pairwise.nil
  · intro past state input holds
    exact store.holdsLast_step holds input
  · intro past state input holds ordered
    rw [accepted_concat]
    cases takes : store.takes state input with
    | none =>
      rw [toList_none, append_nil]
      exact iff_of_true ordered (store.follows_of_takes_none takes)
    | some item =>
      rw [toList_some, ordered_concat_iff trans, and_iff_right ordered]
      simp only [Follows, takes, some.injEq, forall_eq']
      cases stored : (store.table state).lookup (store.key item) with
      | none => rfl
      | some held =>
        rw [holds _ _ stored]
        simp only [some.injEq, forall_eq']

end Store

section Standing

/-- What stands after some more items have arrived. -/
def standing (rule : α → List α → α) (current : α) (arrived : List α) : List α → α
  | [] => current
  | item :: items => standing rule (rule current (arrived ++ [item])) (arrived ++ [item]) items

variable {rule : α → List α → α} {current : α} {arrived items : List α}

theorem standing_append (more : List α) : standing rule current arrived (items ++ more) =
      standing rule (standing rule current arrived items) (arrived ++ items) more := by
  induction items generalizing current arrived with
  | nil => rw [nil_append, append_nil, standing]
  | cons item items ih =>
    rw [cons_append, standing, standing, ih, ← append_cons]

theorem standing_mem (chooses : ∀ current arrived, rule current arrived ∈ current :: arrived) :
    standing rule current arrived items ∈ current :: (arrived ++ items) := by
  induction items generalizing current arrived with
  | nil => exact mem_cons_self
  | cons item items ih =>
    rw [standing, append_cons]
    rcases mem_cons.mp ih with chosen | among
    · rw [chosen]
      exact cons_subset_cons current (subset_append_left _ items) (chooses current (arrived ++ [item]))
    · exact mem_cons_of_mem current among

theorem standing_eq_self (keeps : ∀ seen, seen <+: arrived ++ items → rule current seen = current) :
    standing rule current arrived items = current := by
  induction items generalizing arrived with
  | nil => rfl
  | cons item items ih =>
    rw [append_cons] at keeps
    rw [standing, keeps _ (prefix_append _ items)]
    exact ih keeps

end Standing

end Aafp.Foundation
