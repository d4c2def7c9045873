import Aafp.Foundation.Bytes
import Aafp.Foundation.Result

/-! Code that reads a buffer through a cursor it moves, with everything that could stop it other than an error
it returns. -/
namespace Aafp.Foundation

/-- A panic, a stack that is used up, or a cursor beyond the end of the buffer, which the code would
not notice. -/
inductive Fault where
  | indexOutOfRange
  | overflow
  | unwrapFailed
  | stackExhausted
  | cursorPastEnd

/-- Code with a cursor, which it leaves where it was also when it returns an error. -/
def Reader (α ε β : Type) := List α → Nat → Except Fault (Except ε β × Nat)

namespace Reader

variable {α β γ ε : Type}

def value (result : β) : Reader α ε β := fun _ pos => .ok (.ok result, pos)

def fail (error : ε) : Reader α ε β := fun _ pos => .ok (.error error, pos)

def stop (fault : Fault) : Reader α ε β := fun _ _ => .error fault

def andThen (first : Reader α ε β) (next : β → Reader α ε γ) : Reader α ε γ := fun data pos =>
  match first data pos with
  | .error fault => .error fault
  | .ok (.error error, pos) => .ok (.error error, pos)
  | .ok (.ok result, pos) => next result data pos

instance : Monad (Reader α ε) where
  pure := value
  bind := andThen

/-- `*pos` -/
def here : Reader α ε Nat := fun _ pos => .ok (.ok pos, pos)

/-- `data.len()` -/
def size : Reader α ε Nat := fun data pos => .ok (.ok data.length, pos)

/-- `data[index]` -/
def item (index : Nat) : Reader α ε α := fun data pos =>
  match data[index]? with
  | some found => .ok (.ok found, pos)
  | none => .error .indexOutOfRange

/-- `data[first..last]` -/
def slice (first last : Nat) : Reader α ε (List α) := fun data pos =>
  if first ≤ last ∧ last ≤ data.length then .ok (.ok ((data.drop first).take (last - first)), pos)
  else .error .indexOutOfRange

/-- `items.try_into().unwrap()` into an array of a fixed width. -/
def intoArray (width : Nat) (items : List α) : Reader α ε (List α) :=
  if items.length = width then value items else stop .unwrapFailed

/-- `left + right` -/
def add (left right : Nat) : Reader α ε Nat :=
  if left + right < 2 ^ 64 then value (left + right) else stop .overflow

/-- `left - right` -/
def sub (left right : Nat) : Reader α ε Nat :=
  if right ≤ left then value (left - right) else stop .overflow

/-- `*pos = target` -/
def moveTo (target : Nat) : Reader α ε Unit := fun data _ =>
  if target ≤ data.length then .ok (.ok (), target) else .error .cursorPastEnd

/-- The code runs to its end, moves the cursor forward and within the buffer, and returns what the
scan does. -/
def Follows (data : List α) (pos : Nat) (reader : Reader α ε β) (outcome : Except ε (β × Nat)) : Prop :=
  ∃ next, reader data pos = .ok (outcome.map Prod.fst, next) ∧ pos ≤ next ∧ next ≤ data.length ∧
    ∀ result stop, outcome = .ok (result, stop) → next = stop

namespace Follows

variable {data : List α} {pos : Nat} {reader : Reader α ε β} {outcome : Except ε (β × Nat)}

theorem value (inside : pos ≤ data.length) (result : β) :
    Follows data pos (pure result : Reader α ε β) (.ok (result, pos)) := by
  refine ⟨pos, rfl, Nat.le_refl pos, inside, ?_⟩
  intro _ _ same
  cases same
  rfl

theorem fail (inside : pos ≤ data.length) (error : ε) :
    Follows data pos (Reader.fail error : Reader α ε β) (.error error) :=
  ⟨pos, rfl, Nat.le_refl pos, inside, nofun⟩

theorem bind {next : β → Reader α ε γ} {rest : β × Nat → Except ε (γ × Nat)}
    (first : Follows data pos reader outcome)
    (second : ∀ result stop, stop ≤ data.length → outcome = .ok (result, stop) →
      Follows data stop (next result) (rest (result, stop))) :
    Follows data pos (reader >>= next) (outcome >>= rest) := by
  obtain ⟨middle, ran, moved, inside, same⟩ := first
  cases outcome with
  | error error =>
    refine ⟨middle, ?_, moved, inside, nofun⟩
    change andThen reader next data pos = _
    rw [andThen, ran]
    rfl
  | ok read =>
    cases same read.1 read.2 rfl
    obtain ⟨final, ranOn, movedOn, insideOn, sameOn⟩ := second read.1 read.2 inside rfl
    refine ⟨final, ?_, Nat.le_trans moved movedOn, insideOn, sameOn⟩
    change andThen reader next data pos = _
    rw [andThen, ran]
    exact ranOn

theorem after {result : β} {next : β → Reader α ε γ} {outcome : Except ε (γ × Nat)}
    (step : reader data pos = .ok (.ok result, pos)) (rest : Follows data pos (next result) outcome) :
    Follows data pos (reader >>= next) outcome := by
  have ran : (reader >>= next) data pos = next result data pos := by
    change andThen reader next data pos = _
    rw [andThen, step]
  obtain ⟨final, ranOn, movedOn, insideOn, sameOn⟩ := rest
  exact ⟨final, ran.trans ranOn, movedOn, insideOn, sameOn⟩

theorem afterMove {target : Nat} {next : Unit → Reader α ε γ} {outcome : Except ε (γ × Nat)}
    (forward : pos ≤ target) (inside : target ≤ data.length)
    (rest : Follows data target (next ()) outcome) : Follows data pos (moveTo target >>= next) outcome := by
  have ran : (moveTo target >>= next) data pos = next () data target := by
    change andThen (moveTo target) next data pos = _
    rw [andThen, moveTo, if_pos inside]
  obtain ⟨final, ranOn, movedOn, insideOn, sameOn⟩ := rest
  exact ⟨final, ran.trans ranOn, Nat.le_trans forward movedOn, insideOn, sameOn⟩

theorem ite {condition : Prop} [Decidable condition] {other : Reader α ε β} {otherwise : Except ε (β × Nat)}
    (first : condition → Follows data pos reader outcome)
    (second : ¬ condition → Follows data pos other otherwise) :
    Follows data pos (if condition then reader else other) (if condition then outcome else otherwise) := by
  split
  · exact first ‹_›
  · exact second ‹_›

end Follows

theorem item_ok {data : List α} {found : α} (there : data[index]? = some found) (pos : Nat) :
    (item index : Reader α ε α) data pos = .ok (.ok found, pos) := by
  simp only [item, there]

theorem slice_ok {data : List α} (inside : first + width ≤ data.length) (pos : Nat) :
    (slice first (first + width) : Reader α ε (List α)) data pos =
      .ok (.ok ((data.drop first).take width), pos) := by
  simp only [slice]
  rw [if_pos ⟨Nat.le_add_right first width, inside⟩, Nat.add_sub_cancel_left]

theorem intoArray_ok {items : List α} (whole : items.length = width) (data : List α) (pos : Nat) :
    (intoArray width items : Reader α ε (List α)) data pos = .ok (.ok items, pos) := by
  rw [intoArray, if_pos whole]
  rfl

theorem add_ok (small : left + right < 2 ^ 64) (data : List α) (pos : Nat) :
    (add left right : Reader α ε Nat) data pos = .ok (.ok (left + right), pos) := by
  rw [add, if_pos small]
  rfl

theorem sub_ok (data : List α) (left right pos : Nat) :
    (sub (left + right) right : Reader α ε Nat) data pos = .ok (.ok left, pos) := by
  rw [sub, if_pos (Nat.le_add_left right left), Nat.add_sub_cancel]
  rfl

end Reader

end Aafp.Foundation
