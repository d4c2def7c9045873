import Aafp.Cbor.Decode
import Mathlib.Data.List.MinMax

/-! Wire items. -/
namespace Aafp.Cbor

open Foundation
open Nat hiding max_le
open List hiding tail

inductive Simple where
  | false
  | true
  | null
  | undefined
deriving DecidableEq

def Simple.info : Simple → UInt8
  | .false => simpleFalse
  | .true => simpleTrue
  | .null => simpleNull
  | .undefined => simpleUndefined

def Simple.value : Simple → Value
  | .false => .bool .false
  | .true => .bool .true
  | .null => .null
  | .undefined => .null

inductive Item where
  | unsigned (arg : UInt64)
  | negative (arg : UInt64)
  | byteString (content : List UInt8)
  | textString (content : String)
  | array (items : List Item)
  | map (entries : List (Item × Item))
  | simple (kind : Simple)

@[elab_as_elim, induction_eliminator]
theorem Item.induct {motive : Item → Prop} (unsigned : ∀ arg, motive (.unsigned arg))
    (negative : ∀ arg, motive (.negative arg)) (byteString : ∀ content, motive (.byteString content))
    (textString : ∀ content, motive (.textString content))
    (array : ∀ items, (∀ item ∈ items, motive item) → motive (.array items))
    (map : ∀ entries, (∀ entry ∈ entries, motive entry.1) → (∀ entry ∈ entries, motive entry.2) →
      motive (.map entries))
    (simple : ∀ kind, motive (.simple kind)) (item : Item) : motive item := by
  refine @Item.rec motive (fun items => ∀ item ∈ items, motive item)
    (fun entries => ∀ entry ∈ entries, motive entry.1 ∧ motive entry.2)
    (fun entry => motive entry.1 ∧ motive entry.2)
    unsigned negative byteString textString array ?_ simple ?_ ?_ ?_ ?_ ?_ item
  · intro entries each
    exact map entries (fun entry mem => (each entry mem).1)
      (fun entry mem => (each entry mem).2)
  · simp
  · intro head tail headHolds tailHolds
    simpa using ⟨headHolds, tailHolds⟩
  · simp
  · intro head tail headHolds tailHolds entry mem
    rcases mem_cons.mp mem with rfl | later
    · exact headHolds
    · exact tailHolds entry later
  · intro key value keyHolds valueHolds
    exact ⟨keyHolds, valueHolds⟩

private theorem Item.sizeOf_key_lt (mem : entry ∈ entries) : sizeOf entry.1 < sizeOf (Item.map entries) := by
  have entryLt := sizeOf_lt_of_mem mem
  obtain ⟨key, value⟩ := entry
  simp only [Prod.mk.sizeOf_spec, Item.map.sizeOf_spec] at entryLt ⊢
  omega

theorem Item.sizeOf_value_lt (mem : entry ∈ entries) : sizeOf entry.2 < sizeOf (Item.map entries) := by
  have entryLt := sizeOf_lt_of_mem mem
  obtain ⟨key, value⟩ := entry
  simp only [Prod.mk.sizeOf_spec, Item.map.sizeOf_spec] at entryLt ⊢
  omega

def Item.wire : Item → List UInt8
  | .unsigned arg => encodeHeader mtUnsigned arg
  | .negative arg => encodeHeader mtNegative arg
  | .byteString content => encodeHeader mtByteString (lenArgument content) ++ content
  | .textString content => textKeyEncoding content
  | .array items => encodeHeader mtArray (lenArgument items) ++ items.flatMap fun item => item.wire
  | .map entries => encodeHeader mtMap (lenArgument entries) ++
      entries.flatMap fun entry => entry.1.wire ++ entry.2.wire
  | .simple kind => encodeHeader mtSimple kind.info.toUInt64
decreasing_by
  all_goals first | decreasing_tactic | exact sizeOf_key_lt ‹_› | exact sizeOf_value_lt ‹_›

/-- What the decoder makes of an item. A map whose keys are not all integers
is read as a text-keyed map. -/
def Item.value : Item → Value
  | .unsigned arg => .unsigned arg
  | .negative arg => .negative (-1 - arg.toInt64)
  | .byteString content => .byteString content
  | .textString content => .textString content
  | .array items => .array (items.map fun item => item.value)
  | .map entries =>
    let read := entries.map fun entry => (entry.1.value, entry.2.value)
    if read.all (fun entry => isIntKey entry.1) then
      .intMap (read.map fun entry => (intKeyOf entry.1, entry.2))
    else .strMap (read.map fun entry => (textKeyOf entry.1, entry.2))
  | .simple kind => kind.value
decreasing_by
  all_goals first | decreasing_tactic | exact sizeOf_key_lt ‹_› | exact sizeOf_value_lt ‹_›

def Item.height : Item → Nat
  | .array items => 1 + (items.map fun item => item.height).foldr max 0
  | .map entries => 1 + (entries.map fun entry => max entry.1.height entry.2.height).foldr max 0
  | _ => 1
decreasing_by
  all_goals first | decreasing_tactic | exact sizeOf_key_lt ‹_› | exact sizeOf_value_lt ‹_›

/-- Negative integers of the `i64` range, and maps with distinct keys that are all integers or all
texts. -/
inductive Item.Accepted : Item → Prop where
  | unsigned : Accepted (.unsigned arg)
  | negative (inRange : arg ≤ i64Max) : Accepted (.negative arg)
  | byteString : Accepted (.byteString content)
  | textString : Accepted (.textString content)
  | array (each : ∀ item ∈ items, Accepted item) : Accepted (.array items)
  | map (keys : ∀ entry ∈ entries, Accepted entry.1)
      (values : ∀ entry ∈ entries, Accepted entry.2)
      (distinct : (entries.map fun entry => entry.1.value).Nodup)
      (kind : (∀ entry ∈ entries, isIntKey entry.1.value = true) ∨
        (∀ entry ∈ entries, isTextKey entry.1.value = true)) : Accepted (.map entries)
  | simple : Accepted (.simple kind)

abbrev Item.KeysAlike (entries : List (Item × Item)) : Prop :=
  (∀ entry ∈ entries, isIntKey entry.1.value = true) ∨ ∀ entry ∈ entries, isTextKey entry.1.value = true

theorem Item.value_map_cases (kind : KeysAlike entries) :
    (∀ entry ∈ entries, isIntKey entry.1.value = true) ∧ (Item.map entries).value =
        .intMap (entries.map fun entry => (intKeyOf entry.1.value, entry.2.value)) ∨
      (∀ entry ∈ entries, isTextKey entry.1.value = true) ∧ (Item.map entries).value =
        .strMap (entries.map fun entry => (textKeyOf entry.1.value, entry.2.value)) := by
  rw [Item.value]
  simp only [all_map, map_map, Function.comp_def]
  split
  next ints => exact .inl ⟨all_eq_true.mp ints, rfl⟩
  next notInts =>
    obtain ints | texts := kind
    · exact absurd (all_eq_true.mpr ints) notInts
    · exact .inr ⟨texts, rfl⟩

theorem lenArgument_toNat (fits : items.length < 2 ^ 64) : (lenArgument items).toNat = items.length := by
  exact mod_eq_of_lt fits

theorem Item.wire_ne_nil (item : Item) : item.wire ≠ [] := by
  cases item <;> simp [Item.wire, textKeyEncoding]

theorem length_le_flatMap (f : α → List β) (nonempty : ∀ item, f item ≠ []) (items : List α) :
    items.length ≤ (items.flatMap f).length := by
  induction items with
  | nil => simp
  | cons item items ih =>
    have positive := length_pos_iff.mpr (nonempty item)
    simp only [length_cons, flatMap_cons, length_append]
    omega

theorem decodeValue_head (small : major < 8)
    (here : data.drop pos = encodeHeader major arg ++ tail) (enough : 0 < levels) :
    decodeValue data levels pos =
      decodeBody data (decodeValue data (levels - 1)) major (shortest arg).1 arg
        (pos + (encodeHeader major arg).length) := by
  obtain ⟨levels, rfl⟩ := exists_eq_add_one.mpr enough
  have bytes := here
  rw [encodeHeader_eq] at bytes
  have found := getElem?_at_cursor bytes
  have argument := drop_succ_at_cursor bytes
  obtain ⟨majorBits, infoBits⟩ := headByte_split major (shortest arg).1 small (shortest_info_lt arg)
  have read := readArgument_complete argument
  rw [decodeValue, found]
  simp only [majorBits, infoBits]
  rw [read, length_encodeHeader]
  simp only [ok_bind]
  congr 1
  omega

/-- A decoder finds an item wherever it stands in the buffer. -/
private def Finds (data : List UInt8) (dec : Nat → Except CborError (Value × Nat)) (item : Item) : Prop :=
  ∀ pos rest, data.drop pos = item.wire ++ rest → dec pos = .ok (item.value, pos + item.wire.length)

section

variable {heights : List Nat} {items : List Item} {entries : List (Item × Item)}

section Loops

variable {data rest : List UInt8} {dec : Nat → Except CborError (Value × Nat)}

private theorem decodeItems_complete (each : ∀ item ∈ items, Finds data dec item)
    (here : data.drop pos = items.flatMap (fun item => item.wire) ++ rest) :
    decodeItems dec items.length pos = .ok (items.map (fun item => item.value),
      pos + (items.flatMap fun item => item.wire).length) := by
  induction items generalizing pos with
  | nil => simp [decodeItems]
  | cons item items ih =>
    rw [flatMap_cons, append_assoc] at here
    have first := each item (by simp) pos _ here
    have later := ih (fun other mem => each other (mem_cons_of_mem _ mem))
      (drop_add_length here)
    simp [decodeItems, first, later, add_assoc]

private theorem decodeEntries_complete (read : List (Value × Value))
    (keys : ∀ entry ∈ entries, Finds data dec entry.1) (values : ∀ entry ∈ entries, Finds data dec entry.2)
    (distinct : (read.map Prod.fst ++ entries.map fun entry => entry.1.value).Nodup)
    (here : data.drop pos = entries.flatMap (fun entry => entry.1.wire ++ entry.2.wire) ++ rest) :
    decodeEntries dec entries.length pos read =
      .ok (read ++ entries.map (fun entry => (entry.1.value, entry.2.value)),
        pos + (entries.flatMap fun entry => entry.1.wire ++ entry.2.wire).length) := by
  induction entries generalizing pos read with
  | nil => simp [decodeEntries]
  | cons entry entries ih =>
    rw [flatMap_cons, append_assoc, append_assoc] at here
    have key := keys entry (by simp) pos _ here
    have value := values entry (by simp) _ _ (drop_add_length here)
    have fresh : read.any (fun earlier => earlier.1 == entry.1.value) = false := by
      rw [any_eq_false]
      intro earlier mem same
      have apart := (nodup_append.mp distinct).2.2 earlier.1
        (mem_map_of_mem mem) entry.1.value (by simp)
      exact apart (by simpa using same)
    have later := ih (read ++ [(entry.1.value, entry.2.value)])
      (fun other mem => keys other (mem_cons_of_mem _ mem))
      (fun other mem => values other (mem_cons_of_mem _ mem))
      (by simpa using distinct) (drop_add_length (drop_add_length here))
    simp only [length_cons, decodeEntries, key, value, ok_bind, fresh, Bool.false_eq_true,
      ↓reduceIte, later]
    simp [add_assoc]

end Loops

theorem fromUtf8_asBytes (text : String) : fromUtf8 (asBytes text) = .ok text := by
  have whole : String.fromUTF8? ⟨(asBytes text).toArray⟩ = some text := by
    simp [asBytes, String.fromUTF8?, String.fromUTF8, text.isValidUTF8]
  simp [fromUtf8, whole]

theorem asBytes_inj (same : asBytes left = asBytes right) : left = right := by
  have read := fromUtf8_asBytes left
  rw [same, fromUtf8_asBytes] at read
  exact (Except.ok.inj read).symm

theorem asBytes_of_fromUtf8 (read : fromUtf8 bytes = .ok text) : asBytes text = bytes := by
  unfold fromUtf8 at read
  split at read
  next found =>
    cases read
    unfold String.fromUTF8? at found
    split at found
    · cases found
      simp [asBytes, String.fromUTF8]
    · cases found
  · cases read

theorem le_foldr_max (mem : height ∈ heights) : height ≤ heights.foldr max 0 := le_max_of_le mem le_rfl

theorem foldr_max_le (bounded : ∀ height ∈ heights, height ≤ bound) : heights.foldr max 0 ≤ bound :=
  max_le_of_forall_le _ _ bounded

theorem Item.height_item_lt (mem : item ∈ items) : item.height < (Item.array items).height := by
  have bound := le_foldr_max (mem_map_of_mem (f := fun item => item.height) mem)
  rw [Item.height]
  omega

theorem Item.height_entry_lt (mem : entry ∈ entries) :
    entry.1.height < (Item.map entries).height ∧ entry.2.height < (Item.map entries).height := by
  have bound := le_foldr_max (mem_map_of_mem
    (f := fun entry => max entry.1.height entry.2.height) mem)
  rw [Item.height]
  omega

end

private theorem readSlice_complete (bounded : data.length ≤ isizeMax)
    (inside : pos + bytes.length ≤ data.length) (here : data.drop pos = bytes ++ rest)
    (what : String) : readSlice data pos bytes.length what = .ok (bytes, pos + bytes.length) := by
  unfold isizeMax at bounded
  unfold readSlice
  rw [if_neg (by omega), if_neg (by omega), take_at_cursor here]

theorem Item.height_pos (item : Item) : 0 < item.height := by
  cases item <;> simp [Item.height]

private theorem mapOfEntries_complete (pos : Nat) (kind : Item.KeysAlike entries) :
    mapOfEntries pos (entries.map fun entry => (entry.1.value, entry.2.value)) =
      .ok (Item.map entries).value := by
  unfold mapOfEntries
  rw [Item.value]
  split
  · rfl
  next mixed =>
    rcases kind with ints | texts
    · refine False.elim (mixed ?_)
      simpa using fun key value mem => ints (key, value) mem
    · have allText : (entries.map fun entry => (entry.1.value, entry.2.value)).all
          (fun entry => isTextKey entry.1) = true := by
        simpa using fun key value mem => texts (key, value) mem
      simp [allText]

section Dispatch

variable {data : List UInt8} {dec : Nat → Except CborError (Value × Nat)} {ai : UInt8} {arg : UInt64}
  {pos : Nat}

private theorem decodeBody_array (fits : ¬ arg.toNat > data.length) :
    decodeBody data dec mtArray ai arg pos = (do
      let (items, pos) ← decodeItems dec arg.toNat pos
      .ok (.array items, pos)) :=
  if_neg fits

private theorem decodeBody_map (fits : ¬ arg.toNat > data.length) :
    decodeBody data dec mtMap ai arg pos = (do
      let (entries, pos) ← decodeEntries dec arg.toNat pos []
      let map ← mapOfEntries pos entries
      .ok (map, pos)) :=
  if_neg fits

end Dispatch

private theorem decodeValue_counted
    (bounded : data.length ≤ isizeMax) (enough : 0 < levels) (small : major < 8)
    (short : items.length ≤ content.length)
    (here : data.drop pos = (encodeHeader major (lenArgument items) ++ content) ++ rest) :
    ∃ after, pos + (encodeHeader major (lenArgument items) ++ content).length = after + content.length ∧
      data.drop after = content ++ rest ∧ after + content.length ≤ data.length ∧
      (lenArgument items).toNat = items.length ∧
      decodeValue data levels pos = decodeBody data (decodeValue data (levels - 1)) major
        (shortest (lenArgument items)).1 (lenArgument items) after := by
  have inside := length_at_cursor here (by simp [encodeHeader_ne_nil])
  rw [append_assoc] at here
  rw [length_append] at inside ⊢
  have fits : items.length < 2 ^ 64 := by
    unfold isizeMax at bounded
    omega
  refine ⟨pos + (encodeHeader major (lenArgument items)).length, ?_, drop_add_length here, ?_,
    lenArgument_toNat fits, decodeValue_head small here enough⟩
  · omega
  · omega

section Complete

variable {data : List UInt8} (bounded : data.length ≤ isizeMax) (enough : 0 < levels)

include bounded enough

private theorem finds_byteString (content : List UInt8) :
    Finds data (decodeValue data levels) (.byteString content) := by
  intro pos rest here
  rw [Item.wire] at here ⊢
  obtain ⟨after, moved, there, inside, count, dispatched⟩ :=
    decodeValue_counted bounded enough (by decide) (le_refl _) here
  rw [dispatched]
  change (readSlice _ _ _ _ >>= _) = _
  rw [count, readSlice_complete bounded inside there, moved, Item.value]
  rfl

private theorem finds_textString (content : String) :
    Finds data (decodeValue data levels) (.textString content) := by
  intro pos rest here
  rw [Item.wire, textKeyEncoding] at here ⊢
  obtain ⟨after, moved, there, inside, count, dispatched⟩ :=
    decodeValue_counted bounded enough (by decide) (le_refl _) here
  rw [dispatched]
  change (readSlice _ _ _ _ >>= _) = _
  rw [count, readSlice_complete bounded inside there, moved, Item.value]
  simp only [ok_bind, fromUtf8_asBytes]

private theorem finds_array {items : List Item}
    (deeper : ∀ item ∈ items, Finds data (decodeValue data (levels - 1)) item) :
    Finds data (decodeValue data levels) (.array items) := by
  intro pos rest here
  have short := length_le_flatMap (fun item => item.wire) Item.wire_ne_nil items
  rw [Item.wire] at here ⊢
  obtain ⟨after, moved, there, inside, count, dispatched⟩ :=
    decodeValue_counted bounded enough (by decide) short here
  rw [dispatched, decodeBody_array (by omega), count, decodeItems_complete deeper there, moved, Item.value]
  rfl

private theorem finds_map {entries : List (Item × Item)}
    (keys : ∀ entry ∈ entries, Finds data (decodeValue data (levels - 1)) entry.1)
    (values : ∀ entry ∈ entries, Finds data (decodeValue data (levels - 1)) entry.2)
    (distinct : (entries.map fun entry => entry.1.value).Nodup) (kind : Item.KeysAlike entries) :
    Finds data (decodeValue data levels) (.map entries) := by
  intro pos rest here
  have short := length_le_flatMap (fun entry => entry.1.wire ++ entry.2.wire)
    (fun entry => by simp [Item.wire_ne_nil]) entries
  rw [Item.wire] at here ⊢
  obtain ⟨after, moved, there, inside, count, dispatched⟩ :=
    decodeValue_counted bounded enough (by decide) short here
  rw [dispatched, decodeBody_map (by omega), count,
    decodeEntries_complete [] keys values (by simpa using distinct) there, nil_append, moved]
  simp only [ok_bind, mapOfEntries_complete _ kind]

end Complete

private theorem finds_accepted (bounded : data.length ≤ isizeMax)
    (accepted : item.Accepted) : item.height ≤ levels → Finds data (decodeValue data levels) item := by
  induction accepted generalizing levels with
  | unsigned =>
    intro enough pos rest here
    rw [Item.wire] at here ⊢
    rw [decodeValue_head (by decide) here (lt_of_lt_of_le (Item.height_pos _) enough), Item.value]
    rfl
  | @negative arg inRange =>
    intro enough pos rest here
    rw [Item.wire] at here ⊢
    rw [decodeValue_head (by decide) here (lt_of_lt_of_le (Item.height_pos _) enough), Item.value]
    exact if_neg (UInt64.not_lt.mpr inRange)
  | byteString => exact fun enough => finds_byteString bounded (lt_of_lt_of_le (Item.height_pos _) enough) _
  | textString => exact fun enough => finds_textString bounded (lt_of_lt_of_le (Item.height_pos _) enough) _
  | @array items each ih =>
    intro enough
    apply finds_array bounded (lt_of_lt_of_le (Item.height_pos _) enough)
    intro item mem
    have lower := Item.height_item_lt mem
    exact ih item mem (by omega)
  | @map entries keys values distinct kind keyIh valueIh =>
    intro enough
    apply finds_map bounded (lt_of_lt_of_le (Item.height_pos _) enough) _ _ distinct kind
    · intro entry mem
      have lower := (Item.height_entry_lt mem).1
      exact keyIh entry mem (by omega)
    · intro entry mem
      have lower := (Item.height_entry_lt mem).2
      exact valueIh entry mem (by omega)
  | @simple kind =>
    intro enough pos rest here
    rw [Item.wire] at here ⊢
    rw [decodeValue_head (by decide) here (lt_of_lt_of_le (Item.height_pos _) enough), Item.value]
    cases kind <;> rfl

/-- An accepted item within the nesting budget is decoded to its meaning, with the cursor right
after it. -/
theorem decodeValue_complete {item : Item} (accepted : item.Accepted) {data rest : List UInt8}
    (bounded : data.length ≤ isizeMax) (shallow : item.height ≤ levels) (here : data.drop pos = item.wire ++ rest) :
    decodeValue data levels pos = .ok (item.value, pos + item.wire.length) :=
  finds_accepted bounded accepted shallow pos rest here

/-- An accepted item fills the buffer from `pos` up to `next`. -/
structure Item.Spans (data : List UInt8) (pos next : Nat) (item : Item) : Prop where
  accepted : item.Accepted
  moved : next = pos + item.wire.length
  here : data.drop pos = item.wire ++ data.drop next

/-- An item of bounded height fills the buffer from `pos` up to `next` and means the value. -/
private def Reads (data : List UInt8) (bound pos next : Nat) (value : Value) : Prop :=
  ∃ item : Item, item.Spans data pos next ∧ item.value = value ∧ item.height ≤ bound

section Sound

variable {data : List UInt8} {dec : Nat → Except CborError (Value × Nat)}
  (each : ∀ {pos value next}, dec pos = .ok (value, next) → Reads data bound pos next value)

include each

private theorem decodeItems_sound {next : Nat} (read : decodeItems dec len pos = .ok (values, next)) :
    ∃ items : List Item, items.length = len ∧ (∀ item ∈ items, item.Accepted ∧ item.height ≤ bound) ∧
      items.map (fun item => item.value) = values ∧
      next = pos + (items.flatMap fun item => item.wire).length ∧
      data.drop pos = (items.flatMap fun item => item.wire) ++ data.drop next := by
  induction len generalizing pos values with
  | zero =>
    cases read
    exact ⟨[], by simp⟩
  | succ len ih =>
    simp only [decodeItems, bind_eq_ok, Prod.exists] at read
    obtain ⟨value, middle, first, rest, last, later, same⟩ := read
    cases same
    obtain ⟨item, spans, meaning, low⟩ := each first
    obtain ⟨items, count, accepted, meanings, moved, there⟩ := ih later
    refine ⟨item :: items, by simp [count], ?_, by simp [meaning, meanings], ?_, ?_⟩
    · simpa using ⟨⟨spans.accepted, low⟩, accepted⟩
    · have first := spans.moved
      simp only [flatMap_cons, length_append]
      omega
    · rw [flatMap_cons, append_assoc, ← there, ← spans.here]

private theorem decodeEntries_sound {next : Nat} {read final : List (Value × Value)}
    (unique : (read.map Prod.fst).Nodup)
    (loop : decodeEntries dec len pos read = .ok (final, next)) :
    ∃ entries : List (Item × Item), entries.length = len ∧
      (∀ entry ∈ entries, (entry.1.Accepted ∧ entry.2.Accepted) ∧ max entry.1.height entry.2.height ≤ bound) ∧
      (final.map Prod.fst).Nodup ∧
      final = read ++ entries.map (fun entry => (entry.1.value, entry.2.value)) ∧
      next = pos + (entries.flatMap fun entry => entry.1.wire ++ entry.2.wire).length ∧
      data.drop pos =
        (entries.flatMap fun entry => entry.1.wire ++ entry.2.wire) ++ data.drop next := by
  induction len generalizing pos read with
  | zero =>
    cases loop
    exact ⟨[], by simpa using unique⟩
  | succ len ih =>
    simp only [decodeEntries, bind_eq_ok, Prod.exists] at loop
    obtain ⟨key, middle, keyRead, value, after, valueRead, continued⟩ := loop
    split at continued
    · cases continued
    next fresh =>
      obtain ⟨keyItem, keySpans, rfl, keyLow⟩ := each keyRead
      obtain ⟨valueItem, valueSpans, rfl, valueLow⟩ := each valueRead
      have grown : ((read ++ [(keyItem.value, valueItem.value)]).map Prod.fst).Nodup := by
        rw [map_append, nodup_append]
        refine ⟨unique, by simp, ?_⟩
        intro earlier mem other last
        obtain ⟨entry, present, rfl⟩ := mem_map.mp mem
        intro same
        apply fresh
        rw [any_eq_true]
        exact ⟨entry, present, by simpa [same] using last⟩
      obtain ⟨entries, count, accepted, nodup, listed, moved, there⟩ := ih grown continued
      refine ⟨(keyItem, valueItem) :: entries, by simp [count], ?_, nodup, ?_, ?_, ?_⟩
      · exact forall_mem_cons.mpr
          ⟨⟨⟨keySpans.accepted, valueSpans.accepted⟩, Nat.max_le.mpr ⟨keyLow, valueLow⟩⟩, accepted⟩
      · simpa using listed
      · have first := keySpans.moved
        have second := valueSpans.moved
        simp only [flatMap_cons, length_append]
        omega
      · rw [flatMap_cons, append_assoc, append_assoc, ← there, ← valueSpans.here,
          ← keySpans.here]

end Sound

theorem decodeValue_cases (read : decodeValue data levels pos = .ok result) :
    ∃ deeper major arg, levels = deeper + 1 ∧ major < 8 ∧
      data.drop pos =
        encodeHeader major arg ++ data.drop (pos + (encodeHeader major arg).length) ∧
      decodeBody data (decodeValue data deeper) major (shortest arg).1 arg
        (pos + (encodeHeader major arg).length) = .ok result := by
  rw [decodeValue] at read
  split at read
  · cases read
  next initialByte found =>
    cases levels with
    | zero => cases read
    | succ deeper =>
      simp only [bind_eq_ok, Prod.exists] at read
      obtain ⟨arg, after, argument, body⟩ := read
      have inside : pos + 1 ≤ data.length := (List.getElem?_eq_some_iff.mp found).1
      obtain ⟨info, moved, _, there⟩ := readArgument_sound inside argument
      have position : pos + (encodeHeader (initialByte >>> 5) arg).length = after := by
        rw [length_encodeHeader]
        omega
      refine ⟨deeper, initialByte >>> 5, arg, rfl, headByte_major_lt initialByte, ?_, ?_⟩
      · rw [position, encodeHeader_eq, ← info, headByte_join, cons_append, ← there]
        exact drop_at_cursor found
      · rw [position, ← info]
        exact body

private theorem readSlice_sound {next : Nat} (read : readSlice data pos len what = .ok (bytes, next)) :
    bytes.length = len ∧ next = pos + len ∧ data.drop pos = bytes ++ data.drop next := by
  unfold readSlice at read
  split at read
  · cases read
  · split at read
    · cases read
    next within =>
      cases read
      exact ⟨length_slice data (not_lt.mp within), rfl, drop_eq_take_append data pos len⟩

private theorem lenArgument_of_length (count : items.length = arg.toNat) : lenArgument items = arg := by
  rw [lenArgument, count, UInt64.ofNat_toNat]

private theorem mapOfEntries_sound
    (built : mapOfEntries pos (entries.map fun entry => (entry.1.value, entry.2.value)) =
      .ok value) :
    (Item.map entries).value = value ∧ Item.KeysAlike entries := by
  have kind : Item.KeysAlike entries := by
    unfold mapOfEntries at built
    split at built
    next ints =>
      left
      intro entry mem
      exact all_eq_true.mp ints _ (mem_map_of_mem mem)
    · split at built
      next texts =>
        right
        intro entry mem
        exact all_eq_true.mp texts _ (mem_map_of_mem mem)
      · cases built
  rw [mapOfEntries_complete pos kind] at built
  exact ⟨Except.ok.inj built, kind⟩

private theorem argument_of_info (kind : Simple) (known : (shortest arg).1 = kind.info) :
    arg = kind.info.toUInt64 := by
  have immediate : kind.info.toNat ≤ 23 := by cases kind <;> decide
  rw [shortest_eq] at known
  split_ifs at known with small
  · rw [← known]
    apply UInt64.toNat_inj.mp
    exact (mod_eq_of_lt (by omega)).symm
  all_goals
    rw [← known] at immediate
    exact absurd immediate (by decide)

private theorem decodeSimple_sound {next : Nat} (read : decodeSimple ai pos = .ok (value, next)) :
    ∃ kind : Simple, ai = kind.info ∧ kind.value = value ∧ next = pos := by
  unfold decodeSimple at read
  split_ifs at read with isFalse isTrue isNull isUndefined
  all_goals cases read
  · exact ⟨.false, isFalse, rfl, rfl⟩
  · exact ⟨.true, isTrue, rfl, rfl⟩
  · exact ⟨.null, isNull, rfl, rfl⟩
  · exact ⟨.undefined, isUndefined, rfl, rfl⟩

/-- The bytes after a head, up to `next`, complete it to an accepted item. -/
private def Completes (data : List UInt8) (bound : Nat) (major : UInt8) (arg : UInt64) (pos next : Nat)
    (value : Value) : Prop :=
  ∃ (item : Item) (content : List UInt8), item.Accepted ∧ item.value = value ∧ item.height ≤ bound + 1 ∧
    item.wire = encodeHeader major arg ++ content ∧ next = pos + content.length ∧
    data.drop pos = content ++ data.drop next

section Bodies

variable {data : List UInt8} {dec : Nat → Except CborError (Value × Nat)}

private theorem completes_byteString {next : Nat} (slice : readSlice data pos arg.toNat what = .ok (content, next)) :
    Completes data bound mtByteString arg pos next (.byteString content) := by
  obtain ⟨count, moved, here⟩ := readSlice_sound slice
  refine ⟨.byteString content, content, .byteString, by rw [Item.value], by simp [Item.height], ?_, ?_, here⟩
  · rw [Item.wire, lenArgument_of_length count]
  · rw [moved, count]

private theorem completes_textString {next : Nat} (slice : readSlice data pos arg.toNat what = .ok (bytes, next))
    (utf8 : fromUtf8 bytes = .ok content) :
    Completes data bound mtTextString arg pos next (.textString content) := by
  obtain rfl := asBytes_of_fromUtf8 utf8
  obtain ⟨count, moved, here⟩ := readSlice_sound slice
  refine ⟨.textString content, asBytes content, .textString, by rw [Item.value], by simp [Item.height], ?_, ?_, here⟩
  · rw [Item.wire, textKeyEncoding, lenArgument_of_length count]
  · rw [moved, count]

private theorem completes_simple {next : Nat} (read : decodeSimple (shortest arg).1 pos = .ok (value, next)) :
    Completes data bound mtSimple arg pos next value := by
  obtain ⟨kind, known, meaning, moved⟩ := decodeSimple_sound read
  refine ⟨.simple kind, [], .simple, by rw [Item.value, meaning], by simp [Item.height], ?_, moved, by rw [moved]; rfl⟩
  rw [Item.wire, append_nil, argument_of_info kind known]

variable (each : ∀ {pos value next}, dec pos = .ok (value, next) → Reads data bound pos next value)

include each

private theorem completes_array {next : Nat} (loop : decodeItems dec arg.toNat pos = .ok (values, next)) :
    Completes data bound mtArray arg pos next (.array values) := by
  obtain ⟨items, count, accepted, meanings, moved, here⟩ := decodeItems_sound each loop
  refine ⟨.array items, _, .array fun item mem => (accepted item mem).1, by rw [Item.value, meanings], ?_, ?_,
    moved, here⟩
  · rw [Item.height, add_comm]
    exact succ_le_succ (foldr_max_le (forall_mem_map.mpr fun item mem => (accepted item mem).2))
  · rw [Item.wire, lenArgument_of_length count]

private theorem completes_map {next : Nat} (loop : decodeEntries dec arg.toNat pos [] = .ok (final, next))
    (mapped : mapOfEntries next final = .ok value) : Completes data bound mtMap arg pos next value := by
  obtain ⟨entries, count, accepted, nodup, listed, moved, here⟩ := decodeEntries_sound each (by simp) loop
  subst listed
  obtain ⟨meaning, kind⟩ := mapOfEntries_sound mapped
  have distinct : (entries.map fun entry => entry.1.value).Nodup := by
    simpa [map_map, Function.comp_def] using nodup
  refine ⟨.map entries, _, .map (fun entry mem => (accepted entry mem).1.1)
    (fun entry mem => (accepted entry mem).1.2) distinct kind, meaning, ?_, ?_, moved, here⟩
  · rw [Item.height, add_comm]
    exact succ_le_succ (foldr_max_le (forall_mem_map.mpr fun entry mem => (accepted entry mem).2))
  · rw [Item.wire, lenArgument_of_length count]

private theorem decodeBody_sound {next : Nat}
    (body : decodeBody data dec major (shortest arg).1 arg pos = .ok (value, next)) :
    Completes data bound major arg pos next value := by
  unfold decodeBody at body
  split at body
  next unsigned =>
    subst unsigned
    cases body
    exact ⟨.unsigned arg, [], .unsigned, by rw [Item.value], by simp [Item.height],
      by rw [Item.wire, append_nil], rfl, rfl⟩
  split at body
  next negative =>
    subst negative
    split at body
    · cases body
    next inRange =>
      cases body
      exact ⟨.negative arg, [], .negative (UInt64.not_lt.mp inRange), by rw [Item.value], by simp [Item.height],
        by rw [Item.wire, append_nil], rfl, rfl⟩
  split at body
  next byteString =>
    subst byteString
    simp only [bind_eq_ok, Prod.exists] at body
    obtain ⟨content, after, slice, same⟩ := body
    cases same
    exact completes_byteString slice
  split at body
  next textString =>
    subst textString
    simp only [bind_eq_ok, Prod.exists] at body
    obtain ⟨bytes, after, slice, text⟩ := body
    split at text
    · cases text
    next content utf8 =>
      cases text
      exact completes_textString slice utf8
  split at body
  next array =>
    subst array
    split at body
    · cases body
    · simp only [bind_eq_ok, Prod.exists] at body
      obtain ⟨values, after, loop, same⟩ := body
      cases same
      exact completes_array each loop
  split at body
  next map =>
    subst map
    split at body
    · cases body
    · simp only [bind_eq_ok, Prod.exists] at body
      obtain ⟨final, after, loop, built, mapped, same⟩ := body
      cases same
      exact completes_map each loop mapped
  split at body
  next simple =>
    subst simple
    exact completes_simple body
  split at body <;> cases body

end Bodies

/-- Every decoded value is the meaning of an accepted item that fills exactly the consumed bytes. -/
theorem decodeValue_sound {next : Nat} (read : decodeValue data levels pos = .ok (value, next)) :
    ∃ item : Item, item.Spans data pos next ∧ item.value = value ∧ item.height ≤ levels := by
  induction levels generalizing pos value next with
  | zero =>
    obtain ⟨deeper, _, _, impossible, _⟩ := decodeValue_cases read
    cases impossible
  | succ levels ih =>
    obtain ⟨deeper, major, arg, same, small, here, body⟩ := decodeValue_cases read
    obtain rfl : levels = deeper := succ.inj same
    obtain ⟨item, content, accepted, meaning, low, wire, moved, there⟩ := decodeBody_sound ih body
    refine ⟨item, ⟨accepted, ?_, ?_⟩, meaning, low⟩
    · rw [wire, length_append]
      omega
    · rw [wire, append_assoc, ← there]
      exact here

end Aafp.Cbor
