import Aafp.Cbor.RoundTrip

/-! Which accepted buffers are canonical. -/
namespace Aafp.Cbor

open Foundation List

inductive Item.Fits : Item → Prop where
  | unsigned : Fits (.unsigned arg)
  | negative : Fits (.negative arg)
  | byteString (fits : content.length < 2 ^ 64) : Fits (.byteString content)
  | textString (fits : (asBytes content).length < 2 ^ 64) : Fits (.textString content)
  | array (fits : items.length < 2 ^ 64) (each : ∀ item ∈ items, Fits item) : Fits (.array items)
  | map (fits : entries.length < 2 ^ 64) (keys : ∀ entry ∈ entries, Fits entry.1)
      (values : ∀ entry ∈ entries, Fits entry.2) : Fits (.map entries)
  | simple : Fits (.simple kind)

theorem length_le_flatMap_of_mem (f : α → List β) {items : List α} (mem : item ∈ items) :
    (f item).length ≤ (items.flatMap f).length :=
  (sublist_flatten_of_mem (mem_map_of_mem mem)).length_le

theorem Item.fits_of_length (item : Item) (short : item.wire.length < 2 ^ 64) : item.Fits := by
  induction item with
  | unsigned => exact .unsigned
  | negative => exact .negative
  | byteString content =>
    rw [Item.wire, length_append] at short
    exact .byteString (by omega)
  | textString content =>
    rw [Item.wire, textKeyEncoding, length_append] at short
    exact .textString (by omega)
  | array items ih =>
    rw [Item.wire, length_append] at short
    have count := length_le_flatMap (fun item => item.wire) Item.wire_ne_nil items
    refine .array (by omega) fun item mem => ih item mem ?_
    have inside := length_le_flatMap_of_mem (fun item => item.wire) mem
    omega
  | map entries keyIh valueIh =>
    rw [Item.wire, length_append] at short
    have count := length_le_flatMap (fun entry => entry.1.wire ++ entry.2.wire)
      (fun entry => by simp [Item.wire_ne_nil]) entries
    have inside : ∀ entry ∈ entries, entry.1.wire.length + entry.2.wire.length < 2 ^ 64 := by
      intro entry mem
      have within := length_le_flatMap_of_mem
        (fun entry => entry.1.wire ++ entry.2.wire) mem
      rw [length_append] at within
      omega
    refine .map (by omega) (fun entry mem => keyIh entry mem ?_)
      (fun entry mem => valueIh entry mem ?_)
    · have := inside entry mem
      omega
    · have := inside entry mem
      omega
  | simple => exact .simple

theorem flatMap_append_inj {f : α → List β} {firsts seconds : List α}
    (each : ∀ first ∈ firsts, ∀ second ∈ seconds, ∀ {left right : List β},
      f first ++ left = f second ++ right → first = second ∧ left = right) (count : firsts.length = seconds.length)
    (same : firsts.flatMap f ++ left = seconds.flatMap f ++ right) : firsts = seconds ∧ left = right := by
  induction firsts generalizing seconds with
  | nil =>
    cases seconds with
    | nil => exact ⟨rfl, same⟩
    | cons => simp at count
  | cons first firsts ih =>
    cases seconds with
    | nil => simp at count
    | cons second seconds =>
      rw [flatMap_cons, flatMap_cons, append_assoc, append_assoc] at same
      obtain ⟨rfl, later⟩ := each first mem_cons_self second mem_cons_self same
      obtain ⟨rfl, rest⟩ := ih (fun first mem second other =>
        each first (mem_cons_of_mem _ mem) second (mem_cons_of_mem _ other))
        (Nat.succ.inj count) later
      exact ⟨rfl, rest⟩

private theorem length_eq_of_lenArgument (same : lenArgument first = lenArgument second)
    (fits : first.length < 2 ^ 64) (otherFits : second.length < 2 ^ 64) : first.length = second.length := by
  rw [← lenArgument_toNat fits, ← lenArgument_toNat otherFits, same]

def Item.head : Item → UInt8 × UInt64
  | .unsigned arg => (mtUnsigned, arg)
  | .negative arg => (mtNegative, arg)
  | .byteString content => (mtByteString, lenArgument content)
  | .textString content => (mtTextString, lenArgument (asBytes content))
  | .array items => (mtArray, lenArgument items)
  | .map entries => (mtMap, lenArgument entries)
  | .simple kind => (mtSimple, kind.info.toUInt64)

def Item.body : Item → List UInt8
  | .byteString content => content
  | .textString content => asBytes content
  | .array items => items.flatMap fun item => item.wire
  | .map entries => entries.flatMap fun entry => entry.1.wire ++ entry.2.wire
  | _ => []

theorem Item.wire_eq (item : Item) : item.wire = encodeHeader item.head.1 item.head.2 ++ item.body := by
  cases item <;> simp [Item.wire, Item.head, Item.body, textKeyEncoding]

theorem Item.head_major_lt (item : Item) : item.head.1 < 8 := by
  cases item <;>
    simp [Item.head, mtUnsigned, mtNegative, mtByteString, mtTextString, mtArray, mtMap, mtSimple]

private inductive SameKind : Item → Item → Prop where
  | unsigned : SameKind (.unsigned arg) (.unsigned other)
  | negative : SameKind (.negative arg) (.negative other)
  | byteString : SameKind (.byteString content) (.byteString other)
  | textString : SameKind (.textString content) (.textString other)
  | array : SameKind (.array items) (.array others)
  | map : SameKind (.map entries) (.map others)
  | simple : SameKind (.simple kind) (.simple other)

variable {first second item : Item}

private theorem sameKind_of_major (same : first.head.1 = second.head.1) : SameKind first second := by
  cases first <;> cases second <;> first
    | constructor
    | simp [Item.head, mtUnsigned, mtNegative, mtByteString, mtTextString, mtArray, mtMap, mtSimple] at same

private theorem heads_append_inj (same : first.wire ++ left = second.wire ++ right) :
    SameKind first second ∧ first.head.2 = second.head.2 ∧ first.body ++ left = second.body ++ right := by
  rw [first.wire_eq, second.wire_eq, append_assoc, append_assoc] at same
  obtain ⟨majors, rest⟩ := encodeHeader_append_inj first.head_major_lt second.head_major_lt same
  exact ⟨sameKind_of_major majors, rest⟩

theorem Item.wire_append_inj {left right : List UInt8} (fits : first.Fits) (otherFits : second.Fits)
    (same : first.wire ++ left = second.wire ++ right) : first = second ∧ left = right := by
  -- Equal heads leave one constructor for both items; bodies are told apart by induction.
  induction fits generalizing second left right with
  | unsigned =>
    obtain ⟨kind, args, bodies⟩ := heads_append_inj same
    cases kind
    exact ⟨congrArg Item.unsigned args, bodies⟩
  | negative =>
    obtain ⟨kind, args, bodies⟩ := heads_append_inj same
    cases kind
    exact ⟨congrArg Item.negative args, bodies⟩
  | byteString fits =>
    obtain ⟨kind, args, bodies⟩ := heads_append_inj same
    cases kind
    cases otherFits with
    | byteString otherFits =>
      obtain ⟨rfl, rest⟩ := append_inj bodies (length_eq_of_lenArgument args fits otherFits)
      exact ⟨rfl, rest⟩
  | textString fits =>
    obtain ⟨kind, args, bodies⟩ := heads_append_inj same
    cases kind
    cases otherFits with
    | textString otherFits =>
      obtain ⟨bytes, rest⟩ := append_inj bodies (length_eq_of_lenArgument args fits otherFits)
      exact ⟨congrArg Item.textString (asBytes_inj bytes), rest⟩
  | array fits _ ih =>
    obtain ⟨kind, args, bodies⟩ := heads_append_inj same
    cases kind
    cases otherFits with
    | array otherFits others =>
      have count := length_eq_of_lenArgument args fits otherFits
      obtain ⟨rfl, rest⟩ := flatMap_append_inj (fun first mem second other =>
        ih first mem (others second other)) count bodies
      exact ⟨rfl, rest⟩
  | map fits _ _ keyIh valueIh =>
    obtain ⟨kind, args, bodies⟩ := heads_append_inj same
    cases kind
    cases otherFits with
    | map otherFits keys values =>
      have count := length_eq_of_lenArgument args fits otherFits
      obtain ⟨rfl, rest⟩ := flatMap_append_inj (fun first mem second other => by
        intro left right same
        rw [append_assoc, append_assoc] at same
        obtain ⟨key, later⟩ := keyIh first mem (keys second other) same
        obtain ⟨value, last⟩ := valueIh first mem (values second other) later
        exact ⟨Prod.ext key value, last⟩) count bodies
      exact ⟨rfl, rest⟩
  | @simple spelled =>
    obtain ⟨kind, args, bodies⟩ := heads_append_inj same
    cases kind with
    | @simple _ other =>
      refine ⟨congrArg Item.simple ?_, bodies⟩
      revert args
      cases spelled <;> cases other <;> decide

/-- The rules that the decoder leaves unchecked: map keys in length-first order, unsigned ones up to
`i64::MAX`, no `undefined`. -/
inductive Item.Canonical : Item → Prop where
  | unsigned : Canonical (.unsigned arg)
  | negative : Canonical (.negative arg)
  | byteString : Canonical (.byteString content)
  | textString : Canonical (.textString content)
  | array (each : ∀ item ∈ items, Canonical item) : Canonical (.array items)
  | map (ascending : entries.Pairwise fun left right =>
        (lengthFirst left.1.wire right.1.wire).isLE = true)
      (inRange : ∀ entry ∈ entries, ∀ arg, entry.1 = .unsigned arg → arg ≤ i64Max)
      (values : ∀ entry ∈ entries, Canonical entry.2) : Canonical (.map entries)
  | simple (defined : kind ≠ .undefined) : Canonical (.simple kind)

private theorem textKey_lt_of_shorter (fits : (asBytes left).length < 2 ^ 64)
    (otherFits : (asBytes right).length < 2 ^ 64) (shorter : (asBytes left).length < (asBytes right).length) :
    compare (textKeyEncoding left) (textKeyEncoding right) = .lt ∧
      lengthFirst (textKeyEncoding left) (textKeyEncoding right) = .lt := by
  have arguments : (lenArgument (asBytes left)).toNat < (lenArgument (asBytes right)).toNat := by
    rwa [lenArgument_toNat fits, lenArgument_toNat otherFits]
  have heads := length_encodeHeader_mono mtTextString arguments
  refine ⟨compare_encodeHeader (by decide) arguments _ _, lengthFirst_of_length_lt ?_⟩
  simp only [textKeyEncoding, length_append]
  omega

theorem compare_textKeyEncoding (fits : (asBytes left).length < 2 ^ 64)
    (otherFits : (asBytes right).length < 2 ^ 64) : compare (textKeyEncoding left) (textKeyEncoding right) =
      lengthFirst (textKeyEncoding left) (textKeyEncoding right) := by
  rcases Nat.lt_trichotomy (asBytes left).length (asBytes right).length with below | same | above
  · obtain ⟨bytewise, byLength⟩ := textKey_lt_of_shorter fits otherFits below
    rw [bytewise, byLength]
  · refine (lengthFirst_of_length_eq ?_).symm
    simp [textKeyEncoding, lenArgument, same]
  · obtain ⟨bytewise, byLength⟩ := textKey_lt_of_shorter otherFits fits above
    rw [@Std.OrientedCmp.eq_swap _ compare, bytewise, @Std.OrientedCmp.eq_swap _ lengthFirst, byLength]

/-- The two sorts agree on text keys. The length of a string fits into 64 bits. -/
theorem sortStrKeys_eq_sortBy_lengthFirst (entries : List (String × α))
    (fits : ∀ entry ∈ entries, (asBytes entry.1).length < 2 ^ 64) : sortStrKeys entries =
      sortBy (fun left right => lengthFirst (textKeyEncoding left.1) (textKeyEncoding right.1)) entries := by
  rw [sortStrKeys_eq]
  refine (map_id _).symm.trans ((map_insertionSort _ _ id entries ?_).trans (congrArg _ (map_id entries)))
  intro left leftMember right rightMember
  rw [strKeyOrder, compare_textKeyEncoding (fits left leftMember) (fits right rightMember)]
  rfl

/-- Texts on both sides of the boundary between the first two headers. -/
theorem sortStrKeys_eq_sortBy_of_boundary :
    sortStrKeys [("abcdefghijklmnopqrstuvwx", 1), ("bcdefghijklmnopqrstuvwx", 2)] =
      sortBy (fun left right => lengthFirst (textKeyEncoding left.1) (textKeyEncoding right.1))
        [("abcdefghijklmnopqrstuvwx", 1), ("bcdefghijklmnopqrstuvwx", 2)] :=
  sortStrKeys_eq_sortBy_lengthFirst _ (by decide +kernel)

theorem intKeyItem_inRange (same : intKeyItem key = .unsigned arg) : arg ≤ i64Max := by
  unfold intKeyItem at same
  split at same
  next nonneg =>
    cases same
    exact toInt64_nonneg_iff.mp nonneg
  · cases same

theorem Value.item_canonical (value : Value) (fits : value.item.Fits) : value.item.Canonical := by
  induction value with
  | array items ih =>
    rw [Value.item] at fits ⊢
    cases fits with
    | array _ each =>
      refine .array (forall_mem_map.mpr fun item mem => ih item mem ?_)
      exact each _ (mem_map_of_mem mem)
  | intMap entries ih =>
    have perm := sortIntKeys_perm entries
    rw [item_intMap] at fits ⊢
    cases fits with
    | map _ _ values =>
      refine .map ?_ (forall_mem_map.mpr fun _ _ _ => intKeyItem_inRange)
        (forall_mem_map.mpr fun entry sorted => ih entry (perm.mem_iff.mp sorted) ?_)
      · rw [pairwise_map]
        simp only [intKeyItem_wire]
        rw [sortIntKeys_eq]
        exact sortBy_sorted intKeyOrder entries
      · exact values _ (mem_map_of_mem sorted)
  | strMap entries ih =>
    have perm := sortStrKeys_perm entries
    rw [item_strMap] at fits ⊢
    cases fits with
    | map _ keys values =>
      refine .map ?_ (forall_mem_map.mpr fun _ _ _ other => by cases other)
        (forall_mem_map.mpr fun entry sorted => ih entry (perm.mem_iff.mp sorted) ?_)
      · have sorted := sortBy_sorted strKeyOrder entries
        rw [← sortStrKeys_eq] at sorted
        rw [pairwise_map]
        refine sorted.imp_of_mem fun {left right} leftMember rightMember below => ?_
        have textFits : ∀ entry ∈ sortStrKeys entries, (asBytes entry.1).length < 2 ^ 64 := by
          intro entry mem
          cases keys _ (mem_map_of_mem mem) with
          | textString fits => exact fits
        rw [Item.wire, Item.wire, ← compare_textKeyEncoding (textFits left leftMember) (textFits right rightMember)]
        exact below
      · exact values _ (mem_map_of_mem sorted)
  | bool flag =>
    rw [Value.item]
    exact .simple (by cases flag <;> decide)
  | null =>
    rw [Value.item]
    exact .simple (by decide)
  | unsigned => simpa [Value.item] using .unsigned
  | negative => simpa [Value.item] using .negative
  | byteString => simpa [Value.item] using .byteString
  | textString => simpa [Value.item] using .textString

theorem intKeyItem_intKeyOf (accepted : item.Accepted) (isInt : isIntKey item.value = true)
    (inRange : ∀ arg, item = .unsigned arg → arg ≤ i64Max) : intKeyItem (intKeyOf item.value) = item := by
  cases accepted with
  | @unsigned arg =>
    have nonneg : 0 ≤ arg.toInt64 := toInt64_nonneg_iff.mpr (inRange arg rfl)
    simp [Item.value, intKeyOf, intKeyItem, nonneg]
  | @negative arg bounded =>
    have nonneg : 0 ≤ arg.toInt64 := toInt64_nonneg_iff.mpr bounded
    have mirrored : -1 - (-1 - arg.toInt64) = arg.toInt64 := by grind
    have below : ¬ 0 ≤ -1 - arg.toInt64 := by
      rw [mirror_nonneg_iff, Int64.not_lt]
      exact nonneg
    simp [Item.value, intKeyOf, intKeyItem, below, mirrored]
  | map =>
    rw [Item.value] at isInt
    split at isInt <;> cases isInt
  | @simple kind =>
    rw [Item.value] at isInt
    cases kind <;> cases isInt
  | _ =>
    rw [Item.value] at isInt
    cases isInt

theorem textString_textKeyOf (isText : isTextKey item.value = true) : .textString (textKeyOf item.value) = item := by
  cases item with
  | textString => rw [Item.value, textKeyOf]
  | map =>
    rw [Item.value] at isText
    split at isText <;> cases isText
  | simple kind =>
    rw [Item.value] at isText
    cases kind <;> cases isText
  | _ =>
    rw [Item.value] at isText
    cases isText

private theorem item_of_intKeys (keys : ∀ entry ∈ entries, intKeyItem (intKeyOf entry.1.value) = entry.1)
    (values : ∀ entry ∈ entries, entry.2.value.item = entry.2) (ascending : entries.Pairwise fun left right =>
      (lengthFirst left.1.wire right.1.wire).isLE = true) :
    (Value.intMap (entries.map fun entry => (intKeyOf entry.1.value, entry.2.value))).item =
      .map entries := by
  have sorted : sortIntKeys (entries.map fun entry => (intKeyOf entry.1.value, entry.2.value)) =
      entries.map fun entry => (intKeyOf entry.1.value, entry.2.value) := by
    rw [sortIntKeys_eq]
    refine sortBy_eq_self _ (pairwise_map.mpr (ascending.imp_of_mem ?_))
    intro left right leftMember rightMember below
    rw [intKeyOrder, intKeyEncoding, intKeyEncoding, ← intKeyItem_wire, ← intKeyItem_wire,
      keys left leftMember, keys right rightMember]
    exact below
  rw [Value.item_intMap, sorted, map_map]
  refine congrArg Item.map ((map_congr_left fun entry mem => ?_).trans (map_id entries))
  exact Prod.ext (keys entry mem) (values entry mem)

private theorem item_of_textKeys (keys : ∀ entry ∈ entries, .textString (textKeyOf entry.1.value) = entry.1)
    (fits : ∀ entry ∈ entries, entry.1.Fits) (values : ∀ entry ∈ entries, entry.2.value.item = entry.2)
    (ascending : entries.Pairwise fun left right =>
      (lengthFirst left.1.wire right.1.wire).isLE = true) :
    (Value.strMap (entries.map fun entry => (textKeyOf entry.1.value, entry.2.value))).item =
      .map entries := by
  have textFits : ∀ entry ∈ entries, (asBytes (textKeyOf entry.1.value)).length < 2 ^ 64 := by
    intro entry mem
    have keyFits := fits entry mem
    rw [← keys entry mem] at keyFits
    cases keyFits with
    | textString short => exact short
  have sorted : sortStrKeys (entries.map fun entry => (textKeyOf entry.1.value, entry.2.value)) =
      entries.map fun entry => (textKeyOf entry.1.value, entry.2.value) := by
    rw [sortStrKeys_eq]
    refine sortBy_eq_self _ (pairwise_map.mpr (ascending.imp_of_mem ?_))
    intro left right leftMember rightMember below
    rw [← keys left leftMember, ← keys right rightMember, Item.wire, Item.wire,
      ← compare_textKeyEncoding (textFits left leftMember) (textFits right rightMember)] at below
    exact below
  rw [Value.item_strMap, sorted, map_map]
  refine congrArg Item.map ((map_congr_left fun entry mem => ?_).trans (map_id entries))
  exact Prod.ext (keys entry mem) (values entry mem)

theorem Item.item_value (accepted : item.Accepted) (fits : item.Fits) (canonical : item.Canonical) :
    item.value.item = item := by
  induction accepted with
  | @negative arg =>
    have mirrored : -1 - (-1 - arg.toInt64) = arg.toInt64 := by grind
    simp [Item.value, Value.item, mirrored]
  | array _ ih =>
    cases fits with
    | array _ eachFits =>
    cases canonical with
    | array each =>
    rw [Item.value, Value.item, map_map]
    refine congrArg Item.array ((map_congr_left fun item mem => ?_).trans (map_id _))
    exact ih item mem (eachFits item mem) (each item mem)
  | @map entries keys _ _ kind _ valueIh =>
    cases fits with
    | map _ keysFit valuesFit =>
    cases canonical with
    | map ascending inRange canonicalValues =>
    have values : ∀ entry ∈ entries, entry.2.value.item = entry.2 := fun entry mem =>
      valueIh entry mem (valuesFit entry mem) (canonicalValues entry mem)
    obtain ⟨ints, same⟩ | ⟨texts, same⟩ := Item.value_map_cases kind
    · rw [same]
      exact item_of_intKeys (fun entry mem => intKeyItem_intKeyOf (keys entry mem)
        (ints entry mem) (inRange entry mem)) values ascending
    · rw [same]
      exact item_of_textKeys (fun entry mem => textString_textKeyOf (texts entry mem))
        keysFit values ascending
  | @simple kind =>
    cases canonical with
    | simple defined => cases kind <;> simp_all [Item.value, Simple.value, Value.item]
  | _ => simp [Item.value, Value.item]

theorem checkCanonical_sound (accepted : checkCanonical data = .ok ()) :
    ∃ item : Item, item.Accepted ∧ item.wire = data ∧ decode data = .ok (item.value, data.length) := by
  simp only [checkCanonical, bind_eq_ok, Prod.exists] at accepted
  obtain ⟨value, consumed, read, whole⟩ := accepted
  split at whole
  · cases whole
  next same =>
    obtain rfl : consumed = data.length := Decidable.not_not.mp same
    obtain ⟨item, spans, rfl, -⟩ := decodeValue_sound read
    refine ⟨item, spans.accepted, ?_, read⟩
    have here := spans.here
    rw [drop_length, append_nil] at here
    exact here.symm

/-- A buffer that passes the check re-encodes to itself exactly when it keeps
the rules the decoder leaves unchecked. -/
theorem checkCanonical_reencodes_iff (data : List UInt8) (bounded : data.length ≤ isizeMax)
    (accepted : checkCanonical data = .ok ()) :
    (∃ value, decode data = .ok (value, data.length) ∧ encode value = .ok data) ↔
      ∃ item : Item, item.wire = data ∧ item.Canonical := by
  have short : data.length < 2 ^ 64 := by
    unfold isizeMax at bounded
    omega
  obtain ⟨item, itemAccepted, wire, read⟩ := checkCanonical_sound accepted
  have fits : item.Fits := item.fits_of_length (by rwa [wire])
  constructor
  · rintro ⟨value, decoded, encoded⟩
    rw [read] at decoded
    obtain rfl : item.value = value := congrArg Prod.fst (Except.ok.inj decoded)
    have written : item.value.item.wire = data := by
      rw [Value.item_wire]
      exact Except.ok.inj encoded
    have writtenFits : item.value.item.Fits := Item.fits_of_length _ (by rwa [written])
    exact ⟨item.value.item, written, Value.item_canonical _ writtenFits⟩
  · rintro ⟨other, otherWire, canonical⟩
    have otherFits : other.Fits := other.fits_of_length (by rwa [otherWire])
    have same : item.wire ++ [] = other.wire ++ [] := by rw [wire, otherWire]
    obtain ⟨rfl, _⟩ := Item.wire_append_inj fits otherFits same
    refine ⟨item.value, read, ?_⟩
    rw [encode, ← Value.item_wire, Item.item_value itemAccepted fits canonical, wire]

/-- A one-entry map passes the check and re-encodes to itself. -/
theorem checkCanonical_reencodes_one_entry :
    ∃ value, decode [0xA1, 0x01, 0x02] = .ok (value, 3) ∧ encode value = .ok [0xA1, 0x01, 0x02] :=
  (checkCanonical_reencodes_iff [0xA1, 0x01, 0x02] (by decide) (by decide +kernel)).mpr
    ⟨.map [(.unsigned 1, .unsigned 2)],
      by simp only [Item.wire, flatMap_cons, flatMap_nil]; decide +kernel,
      .map (pairwise_singleton _ _) (by simp [i64Max]) (by simpa using .unsigned)⟩

private theorem not_reencodes (value : Value)
    (read : decode data = .ok (value, data.length)) (other : encodeValue value ≠ data) :
    ¬ ∃ value, decode data = .ok (value, data.length) ∧ encode value = .ok data := by
  rintro ⟨found, decoded, encoded⟩
  rw [read] at decoded
  obtain rfl : value = found := congrArg Prod.fst (Except.ok.inj decoded)
  exact other (Except.ok.inj encoded)

def unsortedKeys : List UInt8 := [0xA2, 0x02, 0x01, 0x01, 0x01]

def undefinedValue : List UInt8 := [0xF7]

def largeKey : List UInt8 := [0xA1, 0x1B, 0xFF, 0xFF, 0xFF, 0xFF, 0xFF, 0xFF, 0xFF, 0xFF, 0x00]

/-- Unsorted keys, `undefined` and a key above `i64::MAX` pass the check, and are not what is
encoded. -/
theorem checkCanonical_accepts_noncanonical : (checkCanonical unsortedKeys = .ok () ∧
      ¬ ∃ value, decode unsortedKeys = .ok (value, unsortedKeys.length) ∧ encode value = .ok unsortedKeys) ∧
    (checkCanonical undefinedValue = .ok () ∧
      ¬ ∃ value, decode undefinedValue = .ok (value, undefinedValue.length) ∧ encode value = .ok undefinedValue) ∧
    checkCanonical largeKey = .ok () ∧
      ¬ ∃ value, decode largeKey = .ok (value, largeKey.length) ∧ encode value = .ok largeKey := by
  refine ⟨⟨by decide +kernel, ?_⟩, ⟨by decide +kernel, ?_⟩, by decide +kernel, ?_⟩
  · exact not_reencodes (.intMap [(2, .unsigned 1), (1, .unsigned 1)]) (by decide +kernel)
      (by decide +kernel)
  · exact not_reencodes .null (by decide +kernel) (by decide +kernel)
  · exact not_reencodes (.intMap [(-1, .unsigned 0)]) (by decide +kernel) (by decide +kernel)

end Aafp.Cbor
