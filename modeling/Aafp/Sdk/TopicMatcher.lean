import Aafp.Foundation.Machine
import Aafp.Foundation.OwnerLists
import Aafp.Sdk.Topic

/-! The subscription index. -/
namespace Aafp.Sdk

open Foundation
open List hiding filter

variable {T : Type}

structure TopicMatcher (T : Type) where
  exact : AList fun _ : String => List T
  wildcard : List (String × List T)

def hasWildcard (filter : String) : Bool := filter.toList.contains '+' || filter.toList.contains '#'

namespace TopicMatcher

def new : TopicMatcher T := { exact := ∅, wildcard := [] }

def pushWildcard (filter : String) (sub : T) : List (String × List T) → List (String × List T)
  | [] => [(filter, [sub])]
  | entry :: entries =>
    if entry.1 = filter then (entry.1, entry.2 ++ [sub]) :: entries
    else entry :: pushWildcard filter sub entries

/-- Register a subscriber for a filter. -/
def subscribe (matcher : TopicMatcher T) (filter : String) (sub : T) : TopicMatcher T :=
  if hasWildcard filter then { matcher with wildcard := pushWildcard filter sub matcher.wildcard }
  else
    { matcher with exact := matcher.exact.insert filter ((matcher.exact.lookup filter).getD [] ++ [sub]) }

/-- `matches`: the subscribers of a published topic. -/
def matching (matcher : TopicMatcher T) (topic : String) : List T :=
  (matcher.exact.lookup topic).getD [] ++
    (matcher.wildcard.filter fun entry => topicMatches entry.1 topic).flatMap Prod.snd

variable [BEq T]

/-- Drop the subscriber from the filter's entry, and tell whether it was there. -/
def retainWildcard (filter : String) (sub : T) : List (String × List T) → Bool × List (String × List T)
  | [] => (false, [])
  | entry :: entries =>
    if entry.1 = filter then
      let kept := entry.2.filter fun other => other != sub
      (kept.length < entry.2.length, (entry.1, kept) :: entries)
    else
      let (removed, entries) := retainWildcard filter sub entries
      (removed, entry :: entries)

/-- Remove a subscriber from a filter. -/
def unsubscribe (matcher : TopicMatcher T) (filter : String) (sub : T) : Bool × TopicMatcher T :=
  let (removedFromExact, exact) := match matcher.exact.lookup filter with
    | none => (false, matcher.exact)
    | some subs =>
      let kept := subs.filter fun other => other != sub
      (decide (kept.length < subs.length), matcher.exact.insert filter kept)
  let (removedFromWild, wildcard) := retainWildcard filter sub matcher.wildcard
  (removedFromExact || removedFromWild, { exact, wildcard })

end TopicMatcher

inductive SubscriptionCall (T : Type) where
  | subscribe (filter : String) (sub : T)
  | unsubscribe (filter : String) (sub : T)

def staysRegistered [BEq T] (filter : String) (sub : T) (pair : String × T) : Bool :=
  !(pair.1 == filter && pair.2 == sub)

def register [BEq T] (pairs : List (String × T)) : SubscriptionCall T → List (String × T)
  | .subscribe filter sub => pairs ++ [(filter, sub)]
  | .unsubscribe filter sub => pairs.filter (staysRegistered filter sub)

def registered [BEq T] (calls : List (SubscriptionCall T)) : List (String × T) := calls.foldl register []

/-- The index as its callers see it; only unsubscribing gives an answer. -/
def topicMatcherMachine [BEq T] : Machine (SubscriptionCall T) (Option Bool) (TopicMatcher T) where
  step matcher
    | .subscribe filter sub => (none, matcher.subscribe filter sub)
    | .unsubscribe filter sub =>
      let (removed, matcher) := matcher.unsubscribe filter sub
      (some removed, matcher)

def subscribersOf (pairs : List (String × T)) (topic : String) : List T :=
  (pairs.filter fun pair => topicMatches pair.1 topic).map Prod.snd

theorem splitTopic_literal (literal : hasWildcard filter = false) :
    "+" ∉ splitTopic filter ∧ "#" ∉ splitTopic filter := by
  have chars : ∀ level ∈ splitTopic filter, ∀ char ∈ level.toList, char ∈ filter.toList := by
    intro level mem
    obtain ⟨part, inside, rfl⟩ := mem_map.mp mem
    rw [String.toList_ofList]
    exact fun char held => (of_mem_splitOnP inside char held).2
  unfold hasWildcard at literal
  rw [Bool.or_eq_false_iff, contains_eq_mem, contains_eq_mem, decide_eq_false_iff_not,
    decide_eq_false_iff_not] at literal
  exact ⟨fun level => literal.1 (chars _ level '+' (by decide)),
    fun level => literal.2 (chars _ level '#' (by decide))⟩

theorem topicMatches_literal (literal : hasWildcard filter = false) :
    topicMatches filter topic = true ↔ splitTopic filter = splitTopic topic := by
  obtain ⟨notOne, notMany⟩ := splitTopic_literal literal
  rw [topicMatches_iff]
  exact Wildcards.accepts_literal notOne notMany

theorem subscribersOf_append (first second : List (String × T)) (topic : String) :
    subscribersOf (first ++ second) topic = subscribersOf first topic ++ subscribersOf second topic := by
  rw [subscribersOf, filter_append, map_append]
  rfl

theorem subscribersOf_perm (same : first.Perm second)
    (topic : String) : (subscribersOf first topic).Perm (subscribersOf second topic) :=
  (same.filter _).map _

theorem subscribersOf_map_mk (filter topic : String) (subs : List T) :
    subscribersOf (subs.map (Prod.mk filter)) topic = if topicMatches filter topic then subs else [] := by
  rw [subscribersOf, filter_map, map_map]
  by_cases matched : topicMatches filter topic = true
  · simp [matched, Function.comp_def]
  · simp [matched, Function.comp_def]

namespace TopicMatcher

def wildcardPairs (entries : List (String × List T)) : List (String × T) :=
  entries.flatMap fun entry => entry.2.map (Prod.mk entry.1)

def allPairs (matcher : TopicMatcher T) : List (String × T) :=
  pairs matcher.exact ++ wildcardPairs matcher.wildcard

theorem wildcardPairs_push (filter : String) (sub : T) (entries : List (String × List T)) :
    (wildcardPairs (pushWildcard filter sub entries)).Perm (wildcardPairs entries ++ [(filter, sub)]) := by
  unfold wildcardPairs
  induction entries with
  | nil => exact .refl _
  | cons entry entries ih =>
    rw [pushWildcard]
    split
    next same =>
      subst same
      simp only [flatMap_cons, map_append, map_cons, map_nil, append_assoc]
      exact perm_append_comm.append_left _
    · rw [flatMap_cons, flatMap_cons, append_assoc]
      exact ih.append_left _

theorem names_push (filter : String) (sub : T) (entries : List (String × List T)) :
    (pushWildcard filter sub entries).map Prod.fst =
      if filter ∈ entries.map Prod.fst then entries.map Prod.fst else entries.map Prod.fst ++ [filter] := by
  induction entries with
  | nil => rfl
  | cons entry entries ih =>
    rw [pushWildcard]
    by_cases same : entry.1 = filter
    · simp [same]
    · rw [if_neg same, map_cons, ih, map_cons]
      simp only [mem_cons, Ne.symm same, false_or]
      split <;> rfl

variable [BEq T]

private theorem filter_map_mk (filter name : String) (sub : T) (subs : List T) :
    (subs.map (Prod.mk name)).filter (staysRegistered filter sub) =
      if name = filter then (subs.filter fun other => other != sub).map (Prod.mk name)
      else subs.map (Prod.mk name) := by
  rw [filter_map]
  split
  next same =>
    congr 2
    funext other
    simp [staysRegistered, same, bne]
  next same =>
    rw [filter_eq_self.mpr]
    simp [staysRegistered, same]

theorem wildcardPairs_filter_of_absent (absent : filter ∉ entries.map Prod.fst) (sub : T) :
    (wildcardPairs entries).filter (staysRegistered filter sub) = wildcardPairs entries := by
  rw [filter_eq_self]
  intro pair mem
  obtain ⟨entry, inside, held⟩ := mem_flatMap.mp mem
  obtain ⟨other, -, rfl⟩ := mem_map.mp held
  have different : entry.1 ≠ filter := fun same => absent (same ▸ mem_map_of_mem inside)
  simp [staysRegistered, different]

variable (filter : String) (sub : T) {matcher : TopicMatcher T}

theorem wildcardPairs_retain (distinct : (entries.map Prod.fst).Nodup) :
    wildcardPairs (retainWildcard filter sub entries).2 =
      (wildcardPairs entries).filter (staysRegistered filter sub) := by
  induction entries with
  | nil => rfl
  | cons entry entries ih =>
    rw [map_cons, nodup_cons] at distinct
    have whole : (wildcardPairs (entry :: entries)).filter (staysRegistered filter sub) =
        (entry.2.map (Prod.mk entry.1)).filter (staysRegistered filter sub) ++
          (wildcardPairs entries).filter (staysRegistered filter sub) := by
      rw [wildcardPairs, flatMap_cons, filter_append]
      rfl
    rw [whole, filter_map_mk, retainWildcard]
    split_ifs with same
    · rw [wildcardPairs_filter_of_absent (same ▸ distinct.1)]
      rfl
    · rw [← ih distinct.2]
      rfl

variable (entries : List (String × List T))

theorem names_retain : (retainWildcard filter sub entries).2.map Prod.fst = entries.map Prod.fst := by
  induction entries with
  | nil => rfl
  | cons entry entries ih =>
    rw [retainWildcard]
    split
    · rfl
    · rw [map_cons, map_cons, ih]

theorem exactPairs_filter (exact : AList fun _ : String => List T) (filter : String) (sub : T) :
    ((pairs exact).filter (staysRegistered filter sub)).Perm
      ((((exact.lookup filter).getD []).filter fun other => other != sub).map (Prod.mk filter) ++
        pairs (exact.erase filter)) := by
  have others : (pairs (exact.erase filter)).filter (staysRegistered filter sub) =
      pairs (exact.erase filter) := by
    rw [filter_eq_self]
    intro pair mem
    simp [staysRegistered, (mem_pairs_erase.mp mem).2]
  have split := (pairs_perm exact filter).filter (staysRegistered filter sub)
  rwa [filter_append, filter_map_mk, if_pos rfl, others] at split

theorem exactPairs_unsubscribe (matcher : TopicMatcher T) (filter : String) (sub : T) :
    (pairs (matcher.unsubscribe filter sub).2.exact).Perm
      ((pairs matcher.exact).filter (staysRegistered filter sub)) := by
  refine List.Perm.trans ?_ (exactPairs_filter matcher.exact filter sub).symm
  unfold unsubscribe
  cases found : matcher.exact.lookup filter with
  | none =>
    have split := pairs_perm matcher.exact filter
    rwa [found] at split
  | some subs =>
    rw [pairs_insert]
    exact .refl _

structure Indexes (matcher : TopicMatcher T) (registered : List (String × T)) : Prop where
  literal : ∀ filter subs, matcher.exact.lookup filter = some subs → hasWildcard filter = false
  wild : ∀ filter ∈ matcher.wildcard.map Prod.fst, hasWildcard filter = true
  distinct : (matcher.wildcard.map Prod.fst).Nodup
  same : matcher.allPairs.Perm registered

omit [BEq T] in
theorem Indexes.subscribe (indexes : matcher.Indexes held) (filter : String) (sub : T) :
    (matcher.subscribe filter sub).Indexes (held ++ [(filter, sub)]) := by
  unfold TopicMatcher.subscribe
  split
  next wild =>
    have names := names_push filter sub matcher.wildcard
    refine ⟨indexes.literal, ?_, ?_, ?_⟩
    · rw [names]
      split
      · exact indexes.wild
      · exact forall_mem_append.mpr ⟨indexes.wild, by simpa using wild⟩
    · rw [names]
      split
      · exact indexes.distinct
      next absent =>
        rw [← concat_eq_append, nodup_concat]
        exact ⟨absent, indexes.distinct⟩
    · have pushed := (wildcardPairs_push filter sub matcher.wildcard).append_left (pairs matcher.exact)
      rw [← append_assoc] at pushed
      exact pushed.trans (indexes.same.append_right _)
  next wild =>
    refine ⟨?_, indexes.wild, indexes.distinct, ?_⟩
    · apply forall_lookup_insert indexes.literal
      simpa using wild
    · have pushed := (pairs_push matcher.exact filter sub).append_right (wildcardPairs matcher.wildcard)
      refine pushed.trans ?_
      rw [append_assoc]
      refine (perm_append_comm.append_left _).trans ?_
      rw [← append_assoc]
      exact indexes.same.append_right _

theorem Indexes.unsubscribe (indexes : matcher.Indexes held) (filter : String) (sub : T) :
    (matcher.unsubscribe filter sub).2.Indexes (held.filter (staysRegistered filter sub)) := by
  have names : (matcher.unsubscribe filter sub).2.wildcard.map Prod.fst =
      matcher.wildcard.map Prod.fst := names_retain filter sub matcher.wildcard
  refine ⟨?_, ?_, ?_, ?_⟩
  · unfold TopicMatcher.unsubscribe
    cases found : matcher.exact.lookup filter with
    | none => exact indexes.literal
    | some subs => exact forall_lookup_insert indexes.literal (indexes.literal filter subs found)
  · rw [names]
    exact indexes.wild
  · rw [names]
    exact indexes.distinct
  · have parts := (exactPairs_unsubscribe matcher filter sub).append_right
      ((wildcardPairs matcher.wildcard).filter (staysRegistered filter sub))
    rw [← filter_append, ← wildcardPairs_retain filter sub indexes.distinct] at parts
    exact parts.trans (indexes.same.filter _)

theorem indexes_run (calls : List (SubscriptionCall T)) :
    (topicMatcherMachine.after new calls).Indexes (registered calls) := by
  induction calls using reverseRecOn with
  | nil => exact ⟨forall_lookup_empty, by simp [Machine.after, new], by simp [Machine.after, new], .refl _⟩
  | append_singleton calls call ih =>
    rw [Machine.after_concat, registered, foldl_concat]
    cases call with
    | subscribe filter sub => exact ih.subscribe filter sub
    | unsubscribe filter sub => exact ih.unsubscribe filter sub

omit [BEq T] in
theorem subscribersOf_wildcardPairs (topic : String) :
    subscribersOf (wildcardPairs entries) topic =
      (entries.filter fun entry => topicMatches entry.1 topic).flatMap Prod.snd := by
  unfold wildcardPairs
  induction entries with
  | nil => rfl
  | cons entry entries ih =>
    rw [flatMap_cons, subscribersOf_append, subscribersOf_map_mk, ih, filter_cons]
    split <;> rfl

omit [BEq T] in
/-- The index misses the subscribers of filters without wildcards that have the levels of the topic
with other separators. -/
theorem Indexes.matching_perm (indexes : matcher.Indexes held) (topic : String) :
    (subscribersOf held topic).Perm
      (matcher.matching topic ++ subscribersOf (pairs (matcher.exact.erase topic)) topic) := by
  have found : subscribersOf (((matcher.exact.lookup topic).getD []).map (Prod.mk topic)) topic =
      (matcher.exact.lookup topic).getD [] := by
    cases lookup : matcher.exact.lookup topic with
    | none => rfl
    | some subs =>
      have itself := (topicMatches_literal (indexes.literal topic subs lookup)).mpr rfl
      rw [subscribersOf_map_mk, if_pos itself]
  have exactPart := subscribersOf_perm (pairs_perm matcher.exact topic) topic
  rw [subscribersOf_append, found] at exactPart
  refine (subscribersOf_perm indexes.same.symm topic).trans ?_
  rw [allPairs, subscribersOf_append, subscribersOf_wildcardPairs, matching]
  refine (exactPart.append_right _).trans ?_
  rw [append_assoc, append_assoc]
  exact perm_append_comm.append_left _

omit [BEq T] in
theorem Indexes.mem_exact {held : List (String × T)} (indexes : matcher.Indexes held) :
    pair ∈ pairs matcher.exact ↔ pair ∈ held ∧ hasWildcard pair.1 = false := by
  rw [← indexes.same.mem_iff, allPairs, mem_append]
  constructor
  · intro inside
    obtain ⟨subs, found, -⟩ := mem_pairs.mp inside
    exact ⟨.inl inside, indexes.literal pair.1 subs found⟩
  · rintro ⟨inside | wild, literal⟩
    · exact inside
    · obtain ⟨entry, mem, subscribed⟩ := mem_flatMap.mp wild
      obtain ⟨sub, -, rfl⟩ := mem_map.mp subscribed
      rw [indexes.wild entry.1 (mem_map_of_mem mem)] at literal
      cases literal

end TopicMatcher

/-- Exactly the subscribers of matching filters are reached unless a filter without wildcards spells
the levels of the topic with other separators. -/
theorem matching_exactly_iff [BEq T] (calls : List (SubscriptionCall T)) (topic : String) :
    ((topicMatcherMachine.after .new calls).matching topic).Perm (subscribersOf (registered calls) topic) ↔
      ∀ pair ∈ registered calls, hasWildcard pair.1 = false →
        splitTopic pair.1 = splitTopic topic → pair.1 = topic := by
  have indexes := TopicMatcher.indexes_run calls
  generalize topicMatcherMachine.after .new calls = matcher at indexes
  have parts := indexes.matching_perm topic
  have complete : (matcher.matching topic).Perm (subscribersOf (registered calls) topic) ↔
      subscribersOf (pairs (matcher.exact.erase topic)) topic = [] := by
    constructor
    · intro same
      have lengths := (same.trans parts).length_eq
      rw [length_append] at lengths
      exact eq_nil_of_length_eq_zero (by omega)
    · intro none
      rw [none, append_nil] at parts
      exact parts.symm
  rw [complete, subscribersOf, map_eq_nil_iff, filter_eq_nil_iff]
  constructor
  · intro missed pair mem literal levels
    by_contra different
    have inside := mem_pairs_erase.mpr ⟨indexes.mem_exact.mpr ⟨mem, literal⟩, different⟩
    exact missed pair inside ((topicMatches_literal literal).mpr levels)
  · intro told pair inside delivered
    obtain ⟨exact, different⟩ := mem_pairs_erase.mp inside
    obtain ⟨mem, literal⟩ := indexes.mem_exact.mp exact
    exact different (told pair mem literal ((topicMatches_literal literal).mp delivered))

/-- A subscriber of `a.b` is not found for the topic `a/b`, which its filter matches. -/
theorem matching_misses_other_separator :
    (topicMatcherMachine.after .new [.subscribe "a.b" 1]).matching "a/b" = ([] : List Nat) ∧
      subscribersOf (registered [.subscribe "a.b" 1]) "a/b" = [1] ∧ topicMatches "a.b" "a/b" = true := by
  refine ⟨?_, ?_, ?_⟩ <;> decide +kernel

end Aafp.Sdk
