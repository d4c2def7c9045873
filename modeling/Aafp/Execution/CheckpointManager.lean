import Aafp.Execution.Checkpoint
import Aafp.Foundation.Saturating
import Aafp.Foundation.Separated

/-! The checkpoint manager. -/
namespace Aafp.Execution

open Foundation Cbor Crypto List

abbrev FileName := List Char

abbrev Directory := AList fun _ : FileName => List UInt8

def isDot (char : Char) : Bool := char = '.'

def isUnderscore (char : Char) : Bool := char = '_'

namespace FileName

/-- A name that starts with its only dot has no extension. -/
def splitAtDot (name : FileName) : List Char × Option (List Char) :=
  match splitLast isDot name with
  | some (stem, extension) => if stem = [] then (name, none) else (stem, some extension)
  | none => (name, none)

def fileStem (name : FileName) : List Char := (splitAtDot name).1

def extension (name : FileName) : Option (List Char) := (splitAtDot name).2

def withExtension (name : FileName) (extension : List Char) : FileName := fileStem name ++ '.' :: extension

end FileName

open FileName

def Directory.rename (directory : Directory) (source target : FileName) : Directory :=
  match directory.lookup source with
  | some content => (directory.erase source).insert target content
  | none => directory

structure RetentionConfig where
  maxCheckpoints : UInt32 := 10
  maxAgeSecs : UInt64 := 0

structure CheckpointManager where
  directory : Directory
  retention : RetentionConfig
  saveCounter : UInt64

def ckpt : List Char := ['c', 'k', 'p', 't']

/-- `<plan_id_hex>_<timestamp>_<seq>`. -/
def checkpointStem (planId : PlanId) (timestamp seq : UInt64) : List Char :=
  (hexEncode planId.1).toList ++ '_' :: (decimal timestamp ++ '_' :: (hexLower 16 seq.toNat).toList)

def checkpointPath (planId : PlanId) (timestamp seq : UInt64) : FileName :=
  checkpointStem planId timestamp seq ++ '.' :: ckpt

namespace CheckpointManager

def new (retention : RetentionConfig) : CheckpointManager := ⟨∅, retention, 0⟩

variable (manager : CheckpointManager)

/-- The counter wraps around. -/
def saveRaw (checkpoint : Checkpoint) : Except SdkError Unit × CheckpointManager :=
  let seq := manager.saveCounter
  let counted := { manager with saveCounter := seq + 1 }
  let path := checkpointPath checkpoint.planId checkpoint.createdAt seq
  match checkpoint.toBytes with
  | .error error => (.error error, counted)
  | .ok bytes =>
    -- written to a temporary file, which then takes the name of the checkpoint
    let tmp := withExtension path ['t', 'm', 'p']
    let written := manager.directory.insert tmp bytes
    (.ok (), { counted with directory := Directory.rename written tmp path })

def saveCheckpoint (plan : ExecutionPlan) (now : UInt64) : Except SdkError PlanId × CheckpointManager :=
  let checkpoint := Checkpoint.fromPlan plan now
  let saved := manager.saveRaw checkpoint
  (saved.1.map fun _ => checkpoint.planId, saved.2)

def timestampFor (planId : PlanId) (name : FileName) : Option UInt64 :=
  if extension name = some ckpt then do
    let rest ← (fileStem name).dropPrefix? ((hexEncode planId.1).toList ++ ['_'])
    let parts ← splitFirst isUnderscore rest
    parseU64 parts.1
  else none

def listCheckpointsForPlan (listing : IterationOrder FileName (List UInt8))
    (planId : PlanId) : List (UInt64 × FileName) :=
  sortBy (compareOn Prod.fst) ((listing.iterate manager.directory).filterMap fun file =>
    (timestampFor planId file.1).map fun timestamp => (timestamp, file.1))

/-- Whether the name starts like those of the plan's checkpoints of that time. -/
def startsLike (planId : PlanId) (timestamp : UInt64) (name : FileName) : Bool :=
  ((hexEncode planId.1).toList ++ '_' :: decimal timestamp).isPrefixOf (fileStem name) &&
    (extension name).isSome

def findCheckpointPath (finding : IterationOrder FileName (List UInt8))
    (planId : PlanId) (timestamp : UInt64) : Option FileName :=
  ((finding.iterate manager.directory).find? fun file => startsLike planId timestamp file.1).map Sigma.fst

def deleteCheckpoint (planId : PlanId) (timestamp : UInt64) : CheckpointManager :=
  let matching := manager.directory.keys.filter fun name =>
    ((hexEncode planId.1).toList ++ '_' :: decimal timestamp).isPrefixOf (fileStem name)
  { manager with directory := eraseAll manager.directory matching }

def read (path : FileName) : Except SdkError (List UInt8) :=
  match manager.directory.lookup path with
  | some data => .ok data
  | none => .error .io

/-- The directory is listed twice: for the greatest timestamp, and for a file that has it. -/
def restoreCheckpoint (listing finding : IterationOrder FileName (List UInt8))
    (planId : PlanId) : Except SdkError (Option Checkpoint) :=
  match ((manager.listCheckpointsForPlan listing planId).map Prod.fst).max? with
  | none => .ok none
  | some timestamp =>
    match manager.findCheckpointPath finding planId timestamp with
    | none => .error (.messaging "checkpoint file not found")
    | some path => do
      let data ← manager.read path
      let checkpoint ← Checkpoint.fromBytes data
      .ok (some checkpoint)

end CheckpointManager

variable {planId other : PlanId} {timestamp later seq : UInt64}

theorem splitAtDot_append (nonempty : stem ≠ []) {extension : List Char}
    (free : ∀ char ∈ extension, isDot char = false) :
    splitAtDot (stem ++ '.' :: extension) = (stem, some extension) := by
  rw [splitAtDot, splitLast_append (by decide) free]
  exact if_neg nonempty

theorem splitAtDot_checkpointPath :
    splitAtDot (checkpointPath planId timestamp seq) = (checkpointStem planId timestamp seq, some ckpt) :=
  splitAtDot_append (by simp [checkpointStem]) (by simp [ckpt, isDot])

@[simp] theorem fileStem_checkpointPath :
    fileStem (checkpointPath planId timestamp seq) = checkpointStem planId timestamp seq := by
  rw [fileStem, splitAtDot_checkpointPath]

@[simp] theorem extension_checkpointPath : extension (checkpointPath planId timestamp seq) = some ckpt := by
  rw [extension, splitAtDot_checkpointPath]

theorem hexEncode_free (bytes : List UInt8) : ∀ char ∈ (hexEncode bytes).toList, isUnderscore char = false := by
  intro char mem
  rw [isUnderscore, decide_eq_false_iff_not]
  intro same
  exact underscore_notMem_hexEncode bytes (same ▸ mem)

theorem decimal_free (n : UInt64) : ∀ char ∈ decimal n, isUnderscore char = false := by
  intro char mem
  rw [isUnderscore, decide_eq_false_iff_not]
  intro same
  exact Nat.underscore_not_in_toDigits (same ▸ mem)

theorem plan_eq_of_append_eq
    (same : (hexEncode planId.1).toList ++ '_' :: rest = (hexEncode other.1).toList ++ '_' :: back) :
    planId = other ∧ rest = back := by
  obtain ⟨names, backs⟩ := front_eq_of_append_eq (by decide) (hexEncode_free planId.1) (hexEncode_free other.1) same
  exact ⟨Subtype.ext (hexEncode_inj names), backs⟩

theorem tmp_ne_of_extension (path : FileName) {name : FileName} (written : extension name = some ckpt) :
    withExtension path ['t', 'm', 'p'] ≠ name := by
  intro same
  rw [← same, withExtension] at written
  by_cases nonempty : fileStem path = []
  · rw [nonempty] at written
    exact absurd written (by decide)
  · rw [extension, splitAtDot_append nonempty (by simp [isDot])] at written
    exact absurd (Option.some.inj written) (by decide)

theorem timestampFor_checkpointPath : CheckpointManager.timestampFor planId (checkpointPath other timestamp seq) =
      if other = planId then some timestamp else none := by
  rw [CheckpointManager.timestampFor, extension_checkpointPath, if_pos rfl, fileStem_checkpointPath]
  split
  next same =>
    subst same
    have rest : (checkpointStem other timestamp seq).dropPrefix? ((hexEncode other.1).toList ++ ['_']) =
        some (decimal timestamp ++ '_' :: (hexLower 16 seq.toNat).toList) := by
      rw [dropPrefix?_eq_some_iff]
      exact ⟨_, by simp [checkpointStem], beq_self_eq_true _⟩
    rw [rest]
    simp only [Option.bind_eq_bind, Option.bind_some,
      splitFirst_append (show isUnderscore '_' = true by decide) (decimal_free timestamp)]
    exact parseU64_decimal timestamp
  next different =>
    have rest : (checkpointStem other timestamp seq).dropPrefix? ((hexEncode planId.1).toList ++ ['_']) =
        none := by
      cases found : (checkpointStem other timestamp seq).dropPrefix? ((hexEncode planId.1).toList ++ ['_']) with
      | none => rfl
      | some rest =>
        obtain ⟨front, whole, same⟩ := dropPrefix?_eq_some_iff.mp found
        rw [eq_of_beq same, append_assoc] at whole
        exact absurd (plan_eq_of_append_eq whole).1 different
    rw [rest]
    rfl

theorem isPrefixOf_checkpointStem :
    ((hexEncode planId.1).toList ++ '_' :: decimal timestamp).isPrefixOf (checkpointStem other later seq) ↔
      other = planId ∧ decimal timestamp <+: decimal later := by
  refine isPrefixOf_iff_prefix.trans ⟨?_, ?_⟩
  · intro ⟨rest, whole⟩
    rw [append_assoc, cons_append] at whole
    obtain ⟨same, digits⟩ := plan_eq_of_append_eq whole
    refine ⟨same.symm, ?_⟩
    rcases prefix_or_prefix_of_prefix (prefix_append (decimal timestamp) rest)
      (digits ▸ prefix_append (decimal later) _) with shorter | longer
    · exact shorter
    · -- otherwise a separator would be among the digits
      obtain ⟨more, longer⟩ := longer
      rw [← longer, append_assoc, append_cancel_left_eq] at digits
      cases more with
      | nil =>
        rw [append_nil] at longer
        rw [longer]
      | cons first more =>
        have same : first = '_' := (cons.inj digits).1
        have mem : '_' ∈ decimal timestamp := by simp [← longer, same]
        exact absurd mem Nat.underscore_not_in_toDigits
  · rintro ⟨rfl, rest, whole⟩
    exact ⟨rest ++ '_' :: (hexLower 16 seq.toNat).toList, by simp [checkpointStem, ← whole]⟩

theorem startsLike_checkpointPath
    (starts : CheckpointManager.startsLike planId timestamp (checkpointPath other later seq)) :
    other = planId ∧ timestamp ≤ later := by
  rw [CheckpointManager.startsLike, fileStem_checkpointPath, Bool.and_eq_true, isPrefixOf_checkpointStem] at starts
  exact ⟨starts.1.1, le_of_decimal_starts starts.1.2⟩

theorem startsLike_self : CheckpointManager.startsLike planId timestamp (checkpointPath planId timestamp seq) := by
  rw [CheckpointManager.startsLike, fileStem_checkpointPath, extension_checkpointPath, Bool.and_eq_true,
    isPrefixOf_checkpointStem]
  exact ⟨⟨rfl, prefix_rfl⟩, rfl⟩

theorem plan_eq_of_checkpointPath_eq
    (same : checkpointPath planId timestamp seq = checkpointPath other time number) : planId = other := by
  have stems := congrArg fileStem same
  rw [fileStem_checkpointPath, fileStem_checkpointPath] at stems
  exact (plan_eq_of_append_eq stems).1

end Aafp.Execution
