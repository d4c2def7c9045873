import Aafp.Foundation.Result
import Aafp.Foundation.Separated
import Aafp.Foundation.Wildcard

/-! Hierarchical topics. -/
namespace Aafp.Sdk

open Foundation String
open List hiding filter

def maxTopicLength : Nat := 256

def maxTopicDepth : Nat := 16

/-- `PUBSUB_INVALID_TOPIC`. -/
def pubsubInvalidTopic : UInt16 := 9009

/-- `PUBSUB_TOPIC_TOO_LONG`. -/
def pubsubTopicTooLong : UInt16 := 9007

def isSeparator (char : Char) : Bool := char == '/' || char == '.'

def splitTopic (topic : String) : List String :=
  (topic.toList.splitOnP isSeparator).map ofList

/-- A topic to publish to: no wildcards and no empty levels. -/
def validatePublishTopic (topic : String) : Except UInt16 Unit :=
  if topic = "" then .error pubsubInvalidTopic
  else if topic.utf8ByteSize > maxTopicLength then .error pubsubTopicTooLong
  else
    let segs := splitTopic topic
    if segs.length > maxTopicDepth then .error pubsubInvalidTopic
    else if segs.any fun seg => seg == "+" || seg == "#" then .error pubsubInvalidTopic
    else if segs.any fun seg => seg == "" then .error pubsubInvalidTopic
    else .ok ()

/-- A subscription filter: `#` only as the last level. -/
def validateFilter (filter : String) : Except UInt16 Unit :=
  if filter = "" then .error pubsubInvalidTopic
  else if filter.utf8ByteSize > maxTopicLength then .error pubsubTopicTooLong
  else
    let segs := splitTopic filter
    if segs.length > maxTopicDepth then .error pubsubInvalidTopic
    else if segs.zipIdx.any fun seg => seg.1 == "#" && seg.2 != segs.length - 1 then
      .error pubsubInvalidTopic
    else .ok ()

/-- The loop over the segments of a topic; `fi` is the next level of the filter. -/
def matchSegments (filter : List String) : (topic : List String) → (fi : Nat) → Bool
  | [], fi => fi == filter.length || filter[fi]? == some "#"
  | seg :: topic, fi =>
    match filter[fi]? with
    | none => false
    | some level =>
      if level = "#" then true
      else if level = "+" then matchSegments filter topic (fi + 1)
      else if level = seg then matchSegments filter topic (fi + 1)
      else false

def topicMatches (filter topic : String) : Bool :=
  matchSegments (splitTopic filter) (splitTopic topic) 0

def topicWildcards : Wildcards String := ⟨"+", "#", by decide⟩

@[simp] theorem topicWildcards_one : topicWildcards.one = "+" := rfl

@[simp] theorem topicWildcards_many : topicWildcards.many = "#" := rfl

theorem matchSegments_iff (filter topic : List String) (fi : Nat) (within : fi ≤ filter.length) :
    matchSegments filter topic fi = true ↔ topicWildcards.accepts (filter.drop fi) topic = true := by
  induction topic generalizing fi with
  | nil =>
    rw [matchSegments]
    by_cases ended : fi = filter.length
    · simp [ended, Wildcards.accepts]
    · have inside : fi < filter.length := by omega
      rw [drop_eq_getElem_cons inside, getElem?_eq_getElem inside, Wildcards.accepts_cons_nil]
      simp [ended]
  | cons seg topic ih =>
    rw [matchSegments]
    by_cases ended : fi = filter.length
    · simp [ended, Wildcards.accepts]
    · have inside : fi < filter.length := by omega
      rw [drop_eq_getElem_cons inside, getElem?_eq_getElem inside, Wildcards.accepts_cons,
        ← ih (fi + 1) inside]
      by_cases rest : filter[fi] = "#"
      · simp [rest]
      by_cases any : filter[fi] = "+"
      · simp [any]
      · simp [rest, any]

theorem topicMatches_iff : topicMatches filter topic = true ↔
    topicWildcards.accepts (splitTopic filter) (splitTopic topic) = true :=
  matchSegments_iff _ _ 0 (Nat.zero_le _)

structure WithinLimits (topic : String) : Prop where
  nonempty : topic ≠ ""
  short : topic.utf8ByteSize ≤ maxTopicLength
  shallow : (splitTopic topic).length ≤ maxTopicDepth

theorem validatePublishTopic_eq_ok : validatePublishTopic topic = .ok () ↔
    WithinLimits topic ∧ ∀ seg ∈ splitTopic topic, seg ≠ "+" ∧ seg ≠ "#" ∧ seg ≠ "" := by
  simp only [validatePublishTopic, ite_error_eq_ok, Nat.not_lt, any_eq_true, Bool.or_eq_true,
    beq_iff_eq, not_exists, not_and, not_or, gt_iff_lt, and_true]
  constructor
  · rintro ⟨nonempty, short, shallow, literal, filled⟩
    exact ⟨⟨nonempty, short, shallow⟩, fun seg mem =>
      ⟨(literal seg mem).1, (literal seg mem).2, filled seg mem⟩⟩
  · rintro ⟨⟨nonempty, short, shallow⟩, each⟩
    exact ⟨nonempty, short, shallow, fun seg mem => ⟨(each seg mem).1, (each seg mem).2.1⟩,
      fun seg mem => (each seg mem).2.2⟩

private theorem only_last_iff [DecidableEq α] {items : List α} :
    (∀ entry ∈ items.zipIdx, entry.1 = item → entry.2 = items.length - 1) ↔ item ∉ items.dropLast := by
  constructor
  · intro each mem
    obtain ⟨index, bound, same⟩ := mem_iff_getElem.mp mem
    rw [getElem_dropLast] at same
    rw [length_dropLast] at bound
    have found : items[index]? = some item := by
      rw [getElem?_eq_getElem (by omega), same]
    have last := each (item, index) (mem_zipIdx_iff_getElem?.mpr found) rfl
    omega
  · rintro absent ⟨other, index⟩ mem rfl
    obtain ⟨bound, same⟩ := List.getElem?_eq_some_iff.mp (mem_zipIdx_iff_getElem?.mp mem)
    by_contra notLast
    have early : index < items.dropLast.length := by
      rw [length_dropLast]
      omega
    apply absent
    rw [← same, ← getElem_dropLast early]
    exact getElem_mem early

theorem validateFilter_eq_ok : validateFilter filter = .ok () ↔
    WithinLimits filter ∧ "#" ∉ (splitTopic filter).dropLast := by
  simp only [validateFilter, ite_error_eq_ok, Nat.not_lt, any_eq_true, Bool.and_eq_true,
    beq_iff_eq, bne_iff_ne, not_exists, not_and, gt_iff_lt, and_true, not_not, only_last_iff]
  constructor
  · rintro ⟨nonempty, short, shallow, last⟩
    exact ⟨⟨nonempty, short, shallow⟩, last⟩
  · rintro ⟨⟨nonempty, short, shallow⟩, last⟩
    exact ⟨nonempty, short, shallow, last⟩

def joinTopic (levels : List String) : String :=
  ofList (['/'].intercalate (levels.map toList))

theorem splitTopic_ne_nil (topic : String) : splitTopic topic ≠ [] := by
  simp [splitTopic]

def Unseparated (level : String) : Prop := ∀ char ∈ level.toList, isSeparator char = false

theorem unseparated_of_mem_splitTopic (mem : level ∈ splitTopic topic) : Unseparated level := by
  obtain ⟨chars, inside, rfl⟩ := mem_map.mp mem
  unfold Unseparated
  rw [toList_ofList]
  exact fun char held => (of_mem_splitOnP inside char held).1

theorem splitTopic_joinTopic (nonempty : levels ≠ [])
    (free : ∀ level ∈ levels, Unseparated level) : splitTopic (joinTopic levels) = levels := by
  unfold splitTopic joinTopic
  rw [toList_ofList, splitOnP_intercalate (by decide) (by simpa using nonempty)
    (forall_mem_map.mpr free), List.map_map]
  simp

theorem utf8ByteSize_ofList (chars : List Char) : (ofList chars).utf8ByteSize = (chars.map Char.utf8Size).sum := by
  induction chars with
  | nil => rfl
  | cons char chars ih =>
    have split : ofList (char :: chars) = singleton char ++ ofList chars := by
      apply toList_inj.mp
      simp
    rw [split, utf8ByteSize_append, ih]
    simp

theorem utf8ByteSize_eq (topic : String) :
    topic.utf8ByteSize + 1 = ((splitTopic topic).map fun level => level.utf8ByteSize + 1).sum := by
  have unit : ∀ char, isSeparator char = true → Char.utf8Size char = 1 := by
    intro char separates
    rcases Bool.or_eq_true_iff.mp separates with slash | dot
    · rw [beq_iff_eq.mp slash]
      decide
    · rw [beq_iff_eq.mp dot]
      decide
  have spread := weight_splitOnP Char.utf8Size unit topic.toList
  rw [← utf8ByteSize_ofList, ofList_toList] at spread
  rw [spread, splitTopic, List.map_map]
  simp only [Function.comp_def, utf8ByteSize_ofList]

private theorem levelBytes_le {levels others : List String}
    (shorter : List.Forall₂ (fun level other => level.utf8ByteSize ≤ other.utf8ByteSize) levels others) :
    (levels.map fun level => level.utf8ByteSize + 1).sum ≤
      (others.map fun level => level.utf8ByteSize + 1).sum := by
  induction shorter with
  | nil => simp
  | cons here _ ih =>
    simp only [map_cons, sum_cons]
    omega

/-- Levels that are not empty make a topic within the limits, if another topic has as many that are
not shorter. -/
theorem WithinLimits.joinTopic {levels : List String} (limits : WithinLimits topic)
    (free : ∀ level ∈ levels, Unseparated level) (filled : "" ∉ levels)
    (shorter : List.Forall₂ (fun level other => level.utf8ByteSize ≤ other.utf8ByteSize)
      levels (splitTopic topic)) : WithinLimits (joinTopic levels) := by
  have count := shorter.length_eq
  have nonempty : levels ≠ [] := by
    rintro rfl
    exact splitTopic_ne_nil topic (forall₂_nil_left_iff.mp shorter)
  have split := splitTopic_joinTopic nonempty free
  refine ⟨?_, ?_, ?_⟩
  · intro empty
    apply filled
    rw [← split, empty]
    decide
  · have bytes := utf8ByteSize_eq (Sdk.joinTopic levels)
    have otherBytes := utf8ByteSize_eq topic
    have below := levelBytes_le shorter
    have short := limits.short
    rw [split] at bytes
    omega
  · rw [split, count]
    exact limits.shallow

end Aafp.Sdk
