import Mathlib.Data.List.Basic

/-! Decoders over a buffer that grows chunk by chunk. -/
namespace Aafp.Foundation

open List

/-- The outcome of a decoder on a buffer, and what it leaves there. An item always
uses some of the buffer. -/
structure StreamDecoder (Byte Item Error : Type) where
  step : List Byte → Except Error (Option Item) × List Byte
  shrinks : step buffer = (.ok (some item), rest) → rest.length < buffer.length

/-- The items taken off a buffer, the error that stopped the decoder, if any, and
the bytes that are left. -/
structure Drained (Byte Item Error : Type) where
  items : List Item
  failed : Option Error
  left : List Byte

def Drained.after (earlier : List Item) (drained : Drained Byte Item Error) : Drained Byte Item Error :=
  { drained with items := earlier ++ drained.items }

namespace StreamDecoder

variable {Byte Item Error : Type}

def drain (decoder : StreamDecoder Byte Item Error) (buffer : List Byte) : Drained Byte Item Error :=
  match _taken : decoder.step buffer with
  | (.ok (some item), rest) => (decoder.drain rest).after [item]
  | (.ok none, rest) => ⟨[], none, rest⟩
  | (.error error, rest) => ⟨[], some error, rest⟩
termination_by buffer.length
decreasing_by exact decoder.shrinks _taken

/-- Append each chunk to the buffer and drain it. A failure ends the stream. -/
def receive (decoder : StreamDecoder Byte Item Error) :
    (buffer : List Byte) → (chunks : List (List Byte)) → Drained Byte Item Error
  | buffer, [] => ⟨[], none, buffer⟩
  | buffer, chunk :: chunks =>
    let drained := decoder.drain (buffer ++ chunk)
    match drained.failed with
    | some _ => drained
    | none => (decoder.receive drained.left chunks).after drained.items

variable {decoder : StreamDecoder Byte Item Error} {encode : Item → List Byte}

theorem drain_of_waits (waits : decoder.step buffer = (.ok none, buffer)) :
    decoder.drain buffer = ⟨[], none, buffer⟩ := by
  rw [drain]
  split <;> simp_all

theorem drain_of_taken (taken : decoder.step buffer = (.ok (some item), rest)) :
    decoder.drain buffer = (decoder.drain rest).after [item] := by
  rw [drain]
  split <;> simp_all

theorem drain_items (whole : ∀ item ∈ items, ∀ rest, decoder.step (encode item ++ rest) = (.ok (some item), rest))
    (waits : decoder.step left = (.ok none, left)) :
    decoder.drain (items.flatMap encode ++ left) = ⟨items, none, left⟩ := by
  induction items with
  | nil => exact drain_of_waits waits
  | cons item items ih =>
    rw [forall_mem_cons] at whole
    rw [flatMap_cons, append_assoc, drain_of_taken (whole.1 _), ih whole.2]
    rfl

/-- The decoder reads the encodings of some items: it takes a whole one off the
front, and waits on a part of one. -/
structure Reads (decoder : StreamDecoder Byte Item Error) (encode : Item → List Byte)
    (items : List Item) : Prop where
  empty : decoder.step [] = (.ok none, [])
  whole : ∀ item ∈ items, ∀ rest, decoder.step (encode item ++ rest) = (.ok (some item), rest)
  part : ∀ item ∈ items, ∀ part, part <+: encode item → part ≠ encode item →
    decoder.step part = (.ok none, part)

theorem Reads.tail (reads : decoder.Reads encode (first ++ items)) : decoder.Reads encode items where
  empty := reads.empty
  whole item mem := reads.whole item (mem_append_right first mem)
  part item mem := reads.part item (mem_append_right first mem)

/-- The first bytes of a stream of items are whole items and a part of the next,
on which the decoder waits. -/
theorem Reads.cut (reads : decoder.Reads encode items) (stream : front ++ back = items.flatMap encode) :
    ∃ done next left, items = done ++ next ∧ front = done.flatMap encode ++ left ∧
      left ++ back = next.flatMap encode ∧ decoder.step left = (.ok none, left) := by
  induction items generalizing front with
  | nil =>
    obtain ⟨rfl, rfl⟩ := append_eq_nil_iff.mp stream
    exact ⟨[], [], [], rfl, rfl, rfl, reads.empty⟩
  | cons item items ih =>
    by_cases short : front <+: encode item ∧ front ≠ encode item
    · exact ⟨[], item :: items, front, rfl, rfl, stream, reads.part item mem_cons_self front short.1 short.2⟩
    · rw [flatMap_cons] at stream
      have longer : encode item <+: front := by
        rcases prefix_or_prefix_of_prefix (prefix_append front back)
          (stream ▸ prefix_append (encode item) (items.flatMap encode)) with shorter | longer
        · by_contra apart
          exact short ⟨shorter, fun same => apart (same ▸ prefix_refl front)⟩
        · exact longer
      obtain ⟨front, rfl⟩ := longer
      rw [append_assoc, append_cancel_left_eq] at stream
      have rest : decoder.Reads encode items := @Reads.tail _ _ _ _ _ [item] items reads
      obtain ⟨done, next, left, rfl, rfl, following, waits⟩ := ih rest stream
      exact ⟨item :: done, next, left, rfl, by simp, following, waits⟩

/-- However the stream is cut into chunks, the items are received in order and
nothing is left over. -/
theorem Reads.receive (reads : decoder.Reads encode items) (waits : decoder.step buffer = (.ok none, buffer))
    (stream : buffer ++ chunks.flatten = items.flatMap encode) :
    decoder.receive buffer chunks = ⟨items, none, []⟩ := by
  induction chunks generalizing buffer items with
  | nil =>
    rw [flatten_nil, append_nil] at stream
    cases items with
    | nil => rw [StreamDecoder.receive, stream, flatMap_nil]
    | cons item items =>
      -- a whole item would have been taken
      rw [stream, flatMap_cons, reads.whole item mem_cons_self] at waits
      cases waits
  | cons chunk chunks ih =>
    rw [flatten_cons, ← append_assoc] at stream
    obtain ⟨done, next, left, rfl, front, following, waiting⟩ := reads.cut stream
    have drained : decoder.drain (buffer ++ chunk) = ⟨done, none, left⟩ := by
      rw [front]
      exact drain_items (fun item mem => reads.whole item (mem_append_left next mem)) waiting
    rw [StreamDecoder.receive, drained]
    rw [ih reads.tail waiting following]
    simp [Drained.after]

end StreamDecoder

end Aafp.Foundation
