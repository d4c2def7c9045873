import Aafp.Sdk.TopicAcl

/-! What an authorized subscription delivers. -/
namespace Aafp.Sdk

open Foundation Identity String
open List hiding count filter

def PubSubCapability.subscribeFilter (cap : String) : Option String :=
  match parse cap with
  | some { topicFilter, action := .subscribe } => some topicFilter
  | _ => none

def TopicAcl.subscribeFilters (acl : TopicAcl) (caller : AgentId) : List String :=
  ((acl.grants.lookup caller).getD []).flatMap fun token =>
    token.cap.filterMap PubSubCapability.subscribeFilter

theorem isAuthorized_subscribe (context : AclAuthContext) (topic : String) :
    context.isAuthorized s!"pubsub/{topic}/subscribe" = context.acl.check context.caller topic .subscribe := by
  have rest : "pubsub/".toList.isPrefixOf? (s!"pubsub/{topic}/subscribe").toList =
      some (topic.toList ++ '/' :: "subscribe".toList) := by
    change "pubsub/".toList.isPrefixOf? ("pubsub/" ++ topic ++ "/subscribe").toList = _
    rw [isPrefixOf?_eq_some_iff_append_eq]
    simp
  have parts : splitLast isSeparator (topic.toList ++ '/' :: "subscribe".toList) =
      some (topic.toList, "subscribe".toList) := splitLast_append (by decide) (by simp [isSeparator])
  have action : TopicAction.parse "subscribe".toList = some .subscribe := by decide
  simp only [AclAuthContext.isAuthorized, rest, Option.orElse_some, parts, action, ofList_toList]

theorem capMatches_subscribe : TopicAcl.capMatches cap topic .subscribe = true ↔
    ∃ filter, PubSubCapability.subscribeFilter cap = some filter ∧ topicMatches filter topic = true := by
  unfold TopicAcl.capMatches PubSubCapability.subscribeFilter
  cases parsed : PubSubCapability.parse cap with
  | none => simp
  | some psc =>
    obtain ⟨filter, action⟩ := psc
    cases action <;> simp

variable {provider : AclAuthorizationProvider} {count : Nat}

theorem authorizeSubscribe_eq_ok : authorizeSubscribe provider caller topic = .ok () ↔
      ∃ filter ∈ provider.acl.subscribeFilters caller, topicMatches filter topic = true := by
  have authorized : authorizeSubscribe provider caller topic = .ok () ↔
      provider.acl.check caller topic .subscribe = true := by
    unfold authorizeSubscribe
    rw [isAuthorized_subscribe]
    by_cases checked : provider.acl.check caller topic .subscribe = true
    · simp [AclAuthorizationProvider.authorize, checked]
    · simp [AclAuthorizationProvider.authorize, checked]
  rw [authorized, TopicAcl.check, TopicAcl.subscribeFilters]
  cases provider.acl.grants.lookup caller with
  | none => simp
  | some tokens =>
    simp only [any_eq_true, capMatches_subscribe, Option.getD_some, mem_flatMap, mem_filterMap]
    constructor
    · rintro ⟨token, held, cap, mem, filter, parsed, accepted⟩
      exact ⟨filter, ⟨token, held, cap, mem, parsed⟩, accepted⟩
    · rintro ⟨filter, ⟨token, held, cap, mem, parsed⟩, accepted⟩
      exact ⟨token, held, cap, mem, filter, parsed, accepted⟩

/-- Every topic that the subscription delivers is one to which the caller may subscribe. -/
def DeliversAuthorized (provider : AclAuthorizationProvider) (caller : AgentId) (filter : String) : Prop :=
  ∀ topic, validatePublishTopic topic = .ok () → topicMatches filter topic = true →
    authorizeSubscribe provider caller topic = .ok ()

/-- The levels of a filter with `count` levels `+` in place of the last one. -/
def expandLevels (filter : String) (count : Nat) : List String :=
  (splitTopic filter).dropLast ++ replicate count "+"

def expand (filter : String) (count : Nat) : String := joinTopic (expandLevels filter count)

/-- Every expansion of `#` that is a valid filter is authorized, too. -/
def ExpansionsAuthorized (provider : AclAuthorizationProvider) (caller : AgentId) (filter : String) : Prop :=
  ∀ count, validateFilter (expand filter count) = .ok () →
    authorizeSubscribe provider caller (expand filter count) = .ok ()

structure PlainChar (char : Char) : Prop where
  width : char.utf8Size = 1
  free : isSeparator char = false
  notOne : char ≠ '+'
  notMany : char ≠ '#'

/-- Some character is not, as a level of its own, spelled out by a filter under which the
caller may subscribe. -/
def LeavesLevel (acl : TopicAcl) (caller : AgentId) : Prop :=
  ∃ char, PlainChar char ∧
    ∀ filter ∈ acl.subscribeFilters caller, singleton char ∉ splitTopic filter

theorem PlainChar.literal (plain : PlainChar char) :
    singleton char ≠ "+" ∧ singleton char ≠ "#" ∧ singleton char ≠ "" := by
  refine ⟨fun same => plain.notOne ?_, fun same => plain.notMany ?_, fun same => ?_⟩
  · simpa using congrArg toList same
  · simpa using congrArg toList same
  · simpa using congrArg toList same

theorem PlainChar.unseparated (plain : PlainChar char) : Unseparated (singleton char) := by
  unfold Unseparated
  simpa using plain.free

theorem authorized_of_fills (fills : topicWildcards.Fills (splitTopic filter) (splitTopic topic))
    (granted : authorizeSubscribe provider caller filter = .ok ()) :
    authorizeSubscribe provider caller topic = .ok () := by
  rw [authorizeSubscribe_eq_ok] at granted ⊢
  obtain ⟨grant, held, admits⟩ := granted
  exact ⟨grant, held, topicMatches_iff.mpr (Wildcards.accepts_of_fills fills (topicMatches_iff.mp admits))⟩

theorem deliversAuthorized_of_bounded (bounded : "#" ∉ splitTopic filter)
    (granted : authorizeSubscribe provider caller filter = .ok ()) : DeliversAuthorized provider caller filter := by
  intro topic _ delivered
  exact authorized_of_fills ((Wildcards.accepts_iff_fills bounded).mp (topicMatches_iff.mp delivered))
    granted

theorem unseparated_expandLevels : ∀ level ∈ expandLevels filter count, Unseparated level := by
  intro level mem
  rcases mem_append.mp mem with stem | plus
  · exact unseparated_of_mem_splitTopic (dropLast_subset _ stem)
  · rw [eq_of_mem_replicate plus]
    simp [Unseparated, isSeparator]

theorem notMem_expandLevels (absent : level ∉ (splitTopic filter).dropLast) (other : level ≠ "+") :
    level ∉ expandLevels filter count := by
  intro mem
  rcases mem_append.mp mem with stem | plus
  · exact absent stem
  · exact other (eq_of_mem_replicate plus)

private theorem shorter_of_fills (fills : topicWildcards.Fills levels segs) (filled : ∀ seg ∈ segs, seg ≠ "") :
    List.Forall₂ (fun level seg => level.utf8ByteSize ≤ seg.utf8ByteSize) levels segs := by
  unfold Wildcards.Fills at fills
  induction fills with
  | nil => exact .nil
  | @cons level seg levels segs fill _ ih =>
    rw [forall_mem_cons] at filled
    refine .cons ?_ (ih filled.2)
    rcases fill with any | same
    · have positive : seg.utf8ByteSize ≠ 0 := mt utf8ByteSize_eq_zero_iff.mp filled.1
      have one : level.utf8ByteSize = 1 := by
        rw [any]
        decide
      omega
    · rw [same]

theorem accepts_concat_hash (bounded : "#" ∉ stem) : topicWildcards.accepts (stem ++ ["#"]) path = true ↔
      ∃ front back, path = front ++ back ∧ topicWildcards.Fills stem front :=
  @Wildcards.accepts_concat_many _ _ topicWildcards _ _ bounded

/-- A filter that ends with `#`, and has no empty level. -/
structure Ends (filter : String) : Prop where
  levels : splitTopic filter = (splitTopic filter).dropLast ++ ["#"]
  bounded : "#" ∉ (splitTopic filter).dropLast
  filled : "" ∉ (splitTopic filter).dropLast

namespace Ends

section

variable (ends : Ends filter)
include ends

theorem delivers_iff : topicMatches filter topic = true ↔
    ∃ front back, splitTopic topic = front ++ back ∧ topicWildcards.Fills (splitTopic filter).dropLast front := by
  rw [topicMatches_iff, ends.levels, dropLast_concat]
  exact accepts_concat_hash ends.bounded

theorem expandLevels_filled : "" ∉ expandLevels filter count :=
  notMem_expandLevels ends.filled (by decide)

theorem expandLevels_bounded : "#" ∉ expandLevels filter count :=
  notMem_expandLevels ends.bounded (by decide)

theorem expansion_valid (fills : topicWildcards.Fills (expandLevels filter count) (splitTopic topic))
    (valid : validatePublishTopic topic = .ok ()) : validateFilter (expand filter count) = .ok () ∧
      splitTopic (expand filter count) = expandLevels filter count := by
  obtain ⟨limits, literal⟩ := validatePublishTopic_eq_ok.mp valid
  have nonempty : expandLevels filter count ≠ [] := by
    intro none
    rw [none] at fills
    exact splitTopic_ne_nil topic (forall₂_nil_left_iff.mp fills)
  have levels := splitTopic_joinTopic nonempty unseparated_expandLevels
  refine ⟨validateFilter_eq_ok.mpr ⟨?_, ?_⟩, levels⟩
  · exact limits.joinTopic unseparated_expandLevels ends.expandLevels_filled
      (shorter_of_fills fills fun seg mem => (literal seg mem).2.2)
  · rw [expand, levels]
    exact fun mem => ends.expandLevels_bounded (dropLast_subset _ mem)

theorem delivers_of_expansions (expansions : ExpansionsAuthorized provider caller filter) :
    DeliversAuthorized provider caller filter := by
  intro topic valid delivered
  obtain ⟨front, back, split, fills⟩ := ends.delivers_iff.mp delivered
  have fills : topicWildcards.Fills (expandLevels filter back.length) (splitTopic topic) := by
    rw [split]
    exact rel_append fills (Wildcards.fills_replicate back)
  obtain ⟨expansionValid, levels⟩ := ends.expansion_valid fills valid
  rw [← levels] at fills
  exact authorized_of_fills fills (expansions _ expansionValid)

end

/-- The levels of an expansion with a character in place of each `+`. -/
def filledLevels (filter : String) (count : Nat) (char : Char) : List String :=
  topicWildcards.fillWith (singleton char) (expandLevels filter count)

theorem mem_filledLevels (mem : seg ∈ filledLevels filter count char) :
    seg = singleton char ∨ seg ≠ "+" ∧ seg ∈ expandLevels filter count := by
  obtain ⟨level, inside, rfl⟩ := mem_map.mp mem
  rw [topicWildcards_one]
  split
  · exact .inl rfl
  next wild => exact .inr ⟨wild, inside⟩

theorem filledLevels_literal (ends : Ends filter) (plain : PlainChar char) :
    ∀ seg ∈ filledLevels filter count char, seg ≠ "+" ∧ seg ≠ "#" ∧ seg ≠ "" := by
  intro seg mem
  rcases mem_filledLevels mem with rfl | ⟨wild, inside⟩
  · exact plain.literal
  · exact ⟨wild, fun many => ends.expandLevels_bounded (many ▸ inside),
      fun empty => ends.expandLevels_filled (empty ▸ inside)⟩

theorem filledLevels_unseparated (plain : PlainChar char) :
    ∀ seg ∈ filledLevels filter count char, Unseparated seg := by
  intro seg mem
  rcases mem_filledLevels mem with rfl | ⟨-, inside⟩
  · exact plain.unseparated
  · exact unseparated_expandLevels seg inside

theorem filledLevels_shorter (plain : PlainChar char) :
    List.Forall₂ (fun seg level => seg.utf8ByteSize ≤ level.utf8ByteSize) (filledLevels filter count char)
      (expandLevels filter count) := by
  refine forall₂_map_left_iff.mpr (forall₂_same.mpr fun level _ => ?_)
  rw [topicWildcards_one]
  split
  next wild =>
    rw [utf8ByteSize_singleton, plain.width, wild]
    decide
  · rfl

theorem filled_valid (ends : Ends filter) (plain : PlainChar char)
    (valid : validateFilter (expand filter count) = .ok ()) :
    splitTopic (expand filter count) = expandLevels filter count ∧
      validatePublishTopic (joinTopic (filledLevels filter count char)) = .ok () ∧
      splitTopic (joinTopic (filledLevels filter count char)) = filledLevels filter count char := by
  obtain ⟨limits, -⟩ := validateFilter_eq_ok.mp valid
  have nonempty : expandLevels filter count ≠ [] := by
    intro none
    apply limits.nonempty
    rw [expand, none]
    rfl
  have split : splitTopic (expand filter count) = expandLevels filter count :=
    splitTopic_joinTopic nonempty unseparated_expandLevels
  have filledSplit : splitTopic (joinTopic (filledLevels filter count char)) =
      filledLevels filter count char := by
    apply splitTopic_joinTopic _ (filledLevels_unseparated plain)
    exact fun none => nonempty (map_eq_nil_iff.mp none)
  have literal := @filledLevels_literal count filter char ends plain
  refine ⟨split, validatePublishTopic_eq_ok.mpr ⟨?_, ?_⟩, filledSplit⟩
  · apply limits.joinTopic (filledLevels_unseparated plain)
    · exact fun mem => (literal "" mem).2.2 rfl
    · rw [split]
      exact filledLevels_shorter plain
  · rw [filledSplit]
    exact literal

/-- If no granted filter spells out the character, the topics filled with it tell which
expansions are authorized. -/
theorem expansions_of_delivers (ends : Ends filter) (leaves : LeavesLevel provider.acl caller)
    (delivers : DeliversAuthorized provider caller filter) : ExpansionsAuthorized provider caller filter := by
  obtain ⟨char, plain, fresh⟩ := leaves
  intro count valid
  obtain ⟨levels, topicValid, topicLevels⟩ := ends.filled_valid plain valid
  have delivered : topicMatches filter (joinTopic (filledLevels filter count char)) = true := by
    rw [ends.delivers_iff, topicLevels]
    have parts : filledLevels filter count char =
        topicWildcards.fillWith (singleton char) (splitTopic filter).dropLast ++
          topicWildcards.fillWith (singleton char) (replicate count "+") := map_append
    exact ⟨_, _, parts, Wildcards.fills_fillWith (singleton char) _⟩
  have authorized := delivers _ topicValid delivered
  rw [authorizeSubscribe_eq_ok] at authorized ⊢
  obtain ⟨grant, held, admits⟩ := authorized
  refine ⟨grant, held, ?_⟩
  rw [topicMatches_iff, topicLevels] at admits
  rw [topicMatches_iff, levels]
  exact Wildcards.accepts_of_fillWith (fresh grant held) admits

end Ends

section

variable (valid : validateFilter filter = .ok ())
include valid

theorem levels_of_valid (rest : "#" ∈ splitTopic filter) :
    splitTopic filter = (splitTopic filter).dropLast ++ ["#"] := by
  obtain ⟨-, bounded⟩ := validateFilter_eq_ok.mp valid
  have split := dropLast_append_getLast (splitTopic_ne_nil filter)
  rw [← split, mem_append] at rest
  rcases rest with early | last
  · exact absurd early bounded
  · rw [mem_singleton.mp last]
    exact split.symm

theorem ends_of_valid (rest : "#" ∈ splitTopic filter) (filled : "" ∉ splitTopic filter) : Ends filter where
  levels := levels_of_valid valid rest
  bounded := (validateFilter_eq_ok.mp valid).2
  filled mem := filled (dropLast_subset _ mem)

theorem deliversAuthorized_of_empty (empty : "" ∈ splitTopic filter) :
    DeliversAuthorized provider caller filter := by
  intro topic topicValid delivered
  rw [topicMatches_iff] at delivered
  have inside : "" ∈ splitTopic topic := by
    by_cases rest : "#" ∈ splitTopic filter
    · rw [levels_of_valid valid rest, mem_append] at empty
      rw [levels_of_valid valid rest, accepts_concat_hash (validateFilter_eq_ok.mp valid).2] at delivered
      obtain ⟨front, back, split, fills⟩ := delivered
      rw [split]
      apply mem_append_left
      exact fills.mem (empty.resolve_right (by decide)) (by decide)
    · exact ((Wildcards.accepts_iff_fills rest).mp delivered).mem empty (by decide)
  obtain ⟨-, literal⟩ := validatePublishTopic_eq_ok.mp topicValid
  exact absurd rfl (literal "" inside).2.2

end

/-- The filter has no `#`, or an empty level, which no topic has, or all its expansions are
authorized. -/
def Covered (provider : AclAuthorizationProvider) (caller : AgentId) (filter : String) : Prop :=
  "#" ∉ splitTopic filter ∨ "" ∈ splitTopic filter ∨ ExpansionsAuthorized provider caller filter

/-- An authorized subscription delivers authorized topics if it is covered, and only then unless
every character is spelled out as a level. -/
theorem subscription_contained_when (provider : AclAuthorizationProvider) (caller : AgentId)
    (filter : String) (valid : validateFilter filter = .ok ())
    (granted : authorizeSubscribe provider caller filter = .ok ()) :
    (Covered provider caller filter → DeliversAuthorized provider caller filter) ∧
      (LeavesLevel provider.acl caller →
        DeliversAuthorized provider caller filter → Covered provider caller filter) := by
  constructor
  · rintro (bounded | empty | expansions)
    · exact deliversAuthorized_of_bounded bounded granted
    · exact deliversAuthorized_of_empty valid empty
    · by_cases rest : "#" ∈ splitTopic filter
      · by_cases empty : "" ∈ splitTopic filter
        · exact deliversAuthorized_of_empty valid empty
        · exact (ends_of_valid valid rest empty).delivers_of_expansions expansions
      · exact deliversAuthorized_of_bounded rest granted
  · intro leaves delivers
    by_cases rest : "#" ∈ splitTopic filter
    · by_cases empty : "" ∈ splitTopic filter
      · exact .inr (.inl empty)
      · exact .inr (.inr ((ends_of_valid valid rest empty).expansions_of_delivers leaves delivers))
    · exact .inl rest

def zeroAgent : AgentId := .filled 0

def plusGrant : AclAuthorizationProvider :=
  .new (TopicAcl.new.grant
    { aud := ofList (replicate 64 '0'), cap := ["pubsub/a/+/subscribe"] })

theorem plusGrant_contains_plus : DeliversAuthorized plusGrant zeroAgent "a/+" :=
  (subscription_contained_when plusGrant zeroAgent "a/+" (by decide +kernel) (by decide +kernel)).1
    (.inl (by decide +kernel))

/-- The grant for one level also admits the filter `a/#`, which delivers `a/b/c`. -/
theorem plusGrant_admits_hash :
    validateFilter "a/#" = .ok () ∧ authorizeSubscribe plusGrant zeroAgent "a/#" = .ok () ∧
      validatePublishTopic "a/b/c" = .ok () ∧ topicMatches "a/#" "a/b/c" = true ∧
      authorizeSubscribe plusGrant zeroAgent "a/b/c" = .error () := by
  refine ⟨?_, ?_, ?_, ?_, ?_⟩ <;> decide +kernel

end Aafp.Sdk
