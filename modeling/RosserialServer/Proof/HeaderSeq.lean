import RosserialServer.Proof.Directions
import RosserialServer.Proof.Exactness

/-!
# Where the `seq` goes

ROS 1 has a `seq` in front of every `std_msgs/Header`, wherever the header sits and
whatever the member is called. The conversions go by the name of the member and by the
presence of a `stamp`, and the encoder by `array_size_` as well. With the type names put
back into the descriptions the two can be compared, member by member, on the types the
conversions accept (`seq_handled_iff`).
-/

namespace RosserialServer

open Bytes Outcome RosStream StreamDeserialization
open NamedMember (erase eraseAll isHeader)

/-- The message members a conversion goes into, at any depth. -/
inductive Reached : List NamedMember → NamedMember → Prop
  | here {members : List NamedMember} {m : NamedMember} (mem : m ∈ members)
      (message : m.typeId = .message) : Reached members m
  | inside {members : List NamedMember} {outer m : NamedMember} (mem : outer ∈ members)
      (message : outer.typeId = .message)
      (entered : outer.array = .single ∨ ∃ size, outer.array = .fixed size ∧ 0 < size)
      (below : Reached outer.members m) : Reached members m

mutual

def memberHoldsHeader : NamedMember → Prop
  | ⟨name, typeId, array, messageNamespace, messageName, subMembers⟩ =>
      typeId = .message ∧ array ≠ .fixed 0 ∧ array ≠ .bounded 0
        ∧ (isHeader ⟨name, typeId, array, messageNamespace, messageName, subMembers⟩ = true
          ∨ HoldsHeader subMembers)

/-- A value of the type can hold a `std_msgs/Header`. -/
def HoldsHeader : List NamedMember → Prop
  | [] => False
  | member :: members => memberHoldsHeader member ∨ HoldsHeader members

end

/-- A `seq` of zero in front of a header, and nothing in front of anything else. -/
def writeSeqOf (m : NamedMember) (b : WriteBuffer) : Except Failure WriteBuffer :=
  if m.isHeader then (b.bufferWrite (some (leBytes 4 0)) 4).mapError .thrown else .ok b

/-- The `seq` of a header, read and dropped. -/
def skipSeqOf (m : NamedMember) (s : RosStream) : Except StdException RosStream :=
  if m.isHeader then do
    let (_, s) ← s.readUInt32
    return s
  else .ok s

/-- What a slot of a message member holds. -/
def IsSlotOf (m : NamedMember) (slot : Slot) : Prop :=
  ∃ objs : List MsgObject, slot = objs.map .msg ∧ m.array.Fits objs.length
    ∧ ∀ fields ∈ objs, HasType (eraseAll m.members) fields

/--
The encoder writes the `seq` of the member right: in front of the contents of each value,
if they are headers, and none where it writes no contents. No header is among the values
it passes over.
-/
def WritesSeq (m : NamedMember) : Prop :=
  match m.array with
  | .single | .fixed _ => ∀ slot b, IsSlotOf m slot →
      serializeMember slot b m.erase = writeEach (fun e b => do
        let b ← writeSeqOf m b
        serializedStructToRos1 e.fields b (eraseAll m.members)) slot b
  | .bounded _ | .unbounded => ¬memberHoldsHeader m
      ∧ ∀ slot b, IsSlotOf m slot → serializeMember slot b m.erase = .ok (true, b)

/-- The decoder takes off a `seq` in front of the contents of the member if it is a header. -/
def ConsumesSeq (m : NamedMember) : Prop :=
  ∀ s slot, deserializeMember s slot m.erase = do
    let s ← skipSeqOf m s
    let (ok, fields, s) ← deserializeRos1ToStruct s slot.fields (eraseAll m.members)
    return (ok, [.msg fields], s)

/-- Both conversions handle the `seq` exactly where it is, in a type they accept. -/
def SeqHandled (members : List NamedMember) : Prop :=
  (∀ b, Encodable (eraseAll members) b → ∀ m, Reached members m → WritesSeq m)
    ∧ ∀ msgObj, Decodable (eraseAll members) msgObj → ∀ m, Reached members m → ConsumesSeq m

/-- What the code takes the member for. -/
def NamedMember.looksLikeHeader (m : NamedMember) : Bool := isStdHeader m.name (eraseAll m.members)

/--
The member is one the code decides right: a plain member looks like a header exactly if it
is one, a fixed array holds no headers, and a sequence neither looks like one nor holds any.
-/
def SeqAgrees (m : NamedMember) : Prop :=
  match m.array with
  | .single => m.looksLikeHeader = m.isHeader
  | .fixed size => if 0 < size then m.isHeader = false else m.looksLikeHeader = false
  | .bounded _ | .unbounded => ¬memberHoldsHeader m ∧ m.looksLikeHeader = false

/-! ## Where the conversions get -/

theorem noStop_of_mem {members : List NamedMember} {m : NamedMember} (hmem : m ∈ members)
    (h : firstStop (plan (eraseAll members)) = none) : firstStop (memberPlan m.erase) = none := by
  induction members with
  | nil => exact absurd hmem (by simp)
  | cons member members ih =>
      rw [eraseAll, plan] at h
      obtain ⟨hfirst, hrest⟩ := firstStop_append_none h
      rcases List.mem_cons.mp hmem with rfl | hmem
      · exact hfirst
      · exact ih hmem hrest

theorem noStop_inside {outer : NamedMember} (hmessage : outer.typeId = .message)
    (hentered : outer.array = .single ∨ ∃ size, outer.array = .fixed size ∧ 0 < size)
    (h : firstStop (memberPlan outer.erase) = none) :
    firstStop (plan (eraseAll outer.members)) = none := by
  obtain ⟨name, typeId, array, messageNamespace, messageName, subMembers⟩ := outer
  dsimp only at hmessage hentered ⊢
  subst hmessage
  rw [erase, memberPlan_message, firstStop_seq] at h
  rcases hentered with rfl | ⟨size, rfl, hpos⟩
  · exact h
  · dsimp only at h
    rwa [if_pos hpos] at h

/-- The encoder does not stop at a member it reaches, if it stops nowhere. -/
theorem Reached.noStop {members : List NamedMember} {m : NamedMember} (hreach : Reached members m)
    (h : firstStop (plan (eraseAll members)) = none) :
    m.typeId = .message ∧ firstStop (memberPlan m.erase) = none := by
  induction hreach with
  | here mem message => exact ⟨message, noStop_of_mem mem h⟩
  | inside mem message entered _ ih => exact ih (noStop_inside message entered (noStop_of_mem mem h))

theorem supported_of_mem {members : List NamedMember} {m : NamedMember} (hmem : m ∈ members)
    (h : Item.unsupported ∉ layout (eraseAll members)) :
    Item.unsupported ∉ memberLayout m.erase := by
  induction members with
  | nil => exact absurd hmem (by simp)
  | cons member members ih =>
      rw [eraseAll, layout, List.mem_append, not_or] at h
      rcases List.mem_cons.mp hmem with rfl | hmem
      · exact h.1
      · exact ih hmem h.2

/-- A message member the decoder supports is not an array. -/
theorem supported_message {m : NamedMember} (hmessage : m.typeId = .message)
    (h : Item.unsupported ∉ memberLayout m.erase) :
    m.array = .single ∧ Item.unsupported ∉ layout (eraseAll m.members) := by
  obtain ⟨name, typeId, array, messageNamespace, messageName, subMembers⟩ := m
  dsimp only at hmessage ⊢
  subst hmessage
  rw [erase] at h
  by_cases ha : array = .single
  · subst ha
    rw [memberLayout_message, List.mem_append, not_or] at h
    exact ⟨rfl, h.2⟩
  · rw [memberLayout_array ha (by rintro ⟨_, -, -, hd⟩; exact absurd hd (by simp))] at h
    exact absurd (List.mem_singleton.mpr rfl) h

theorem Reached.supported {members : List NamedMember} {m : NamedMember}
    (hreach : Reached members m) (h : Item.unsupported ∉ layout (eraseAll members)) :
    m.typeId = .message ∧ m.array = .single := by
  induction hreach with
  | here mem message => exact ⟨message, (supported_message message (supported_of_mem mem h)).1⟩
  | inside mem message _ _ ih =>
      exact ih (supported_message message (supported_of_mem mem h)).2

/-! ## Where the code decides right -/

theorem writeSeq_eq {m : NamedMember} (b : WriteBuffer) :
    writeSeq b m.name m.array (eraseAll m.members)
      = if m.array.arraySize == 0 && m.looksLikeHeader then
          (b.bufferWrite (some (leBytes 4 0)) 4).mapError .thrown
        else .ok b := rfl

theorem serializeMember_message_eq {m : NamedMember} (h : m.typeId = .message) (slot : Slot)
    (b : WriteBuffer) :
    serializeMember slot b m.erase = (do
      let b ← writeSeq b m.name m.array (eraseAll m.members)
      let es ← elements slot m.array
      writeEach (fun e b => serializedStructToRos1 e.fields b (eraseAll m.members)) es b) := by
  obtain ⟨name, typeId, array, messageNamespace, messageName, subMembers⟩ := m
  dsimp only at h ⊢
  subst h
  rw [erase]
  unfold serializeMember
  rfl

/-- Nothing is written for a member without elements that is not taken for a header. -/
theorem writes_nothing {m : NamedMember} (hmessage : m.typeId = .message)
    (hlooks : m.looksLikeHeader = false) {slot : Slot} (helems : elements slot m.array = .ok [])
    (b : WriteBuffer) : serializeMember slot b m.erase = .ok (true, b) := by
  rw [serializeMember_message_eq hmessage, writeSeq_eq, hlooks, Bool.and_false,
    if_neg (by simp), ok_bind, helems]
  rfl

theorem writesSeq_single {m : NamedMember} (hmessage : m.typeId = .message)
    (ha : m.array = .single) (h : m.looksLikeHeader = m.isHeader) {slot : Slot}
    (hslot : IsSlotOf m slot) (b : WriteBuffer) :
    serializeMember slot b m.erase = writeEach (fun e b => do
      let b ← writeSeqOf m b
      serializedStructToRos1 e.fields b (eraseAll m.members)) slot b := by
  obtain ⟨objs, rfl, hcount, -⟩ := hslot
  rw [ha] at hcount
  obtain ⟨fields, rfl⟩ := List.length_eq_one_iff.mp hcount
  rw [serializeMember_message_eq hmessage, writeSeq_eq, ha, h,
    elements_all rfl (by rw [List.length_map]; exact hcount)]
  unfold writeSeqOf
  cases m.isHeader with
  | false => rfl
  | true =>
      obtain ⟨b', hwrite, -⟩ := b.bufferWrite_all (length_leBytes 4 0)
      simp only [writeEach, List.map_cons, List.map_nil, if_true, hwrite]
      rfl

theorem writesSeq_fixed {m : NamedMember} (hmessage : m.typeId = .message) {size : Nat}
    (ha : m.array = .fixed size) (hpos : 0 < size) (h : m.isHeader = false) {slot : Slot}
    (hslot : IsSlotOf m slot) (b : WriteBuffer) :
    serializeMember slot b m.erase = writeEach (fun e b => do
      let b ← writeSeqOf m b
      serializedStructToRos1 e.fields b (eraseAll m.members)) slot b := by
  obtain ⟨objs, rfl, hcount, -⟩ := hslot
  rw [ha] at hcount
  have hne : ((ArraySpec.fixed size).arraySize == 0) = false := by
    rw [beq_eq_false_iff_ne]
    exact Nat.ne_of_gt hpos
  rw [serializeMember_message_eq hmessage, writeSeq_eq, ha, hne,
    elements_all (flatStep_fixed hpos) (by rw [List.length_map]; exact hcount)]
  unfold writeSeqOf
  rw [h]
  rfl

/-- The only bounded sequences of messages that do not stop the encoder are empty ones. -/
theorem bounded_zero {m : NamedMember} (hmessage : m.typeId = .message) {bound : Nat}
    (ha : m.array = .bounded bound) (hstop : firstStop (memberPlan m.erase) = none) :
    bound = 0 := by
  obtain ⟨name, typeId, array, messageNamespace, messageName, subMembers⟩ := m
  dsimp only at hmessage ha
  subst hmessage ha
  rw [erase, memberPlan_message, firstStop_seq] at hstop
  by_cases hpos : 0 < bound
  · dsimp only at hstop
    rw [if_pos hpos] at hstop
    exact absurd rfl (firstStop_cons_none hstop .undefined)
  · omega

theorem writesSeq_of_agrees {m : NamedMember} (hmessage : m.typeId = .message)
    (hstop : firstStop (memberPlan m.erase) = none) (h : SeqAgrees m) : WritesSeq m := by
  unfold SeqAgrees at h
  unfold WritesSeq
  cases ha : m.array with
  | single =>
      rw [ha] at h
      exact fun slot b hslot => writesSeq_single hmessage ha h hslot b
  | fixed size =>
      rw [ha] at h
      dsimp only at h ⊢
      intro slot b hslot
      by_cases hpos : 0 < size
      · rw [if_pos hpos] at h
        exact writesSeq_fixed hmessage ha hpos h hslot b
      · rw [if_neg hpos] at h
        obtain ⟨objs, rfl, hcount, -⟩ := hslot
        obtain rfl : size = 0 := by omega
        rw [ha] at hcount
        obtain rfl : objs = [] := List.eq_nil_of_length_eq_zero hcount
        exact writes_nothing hmessage h (by rw [ha]; rfl) b
  | bounded bound =>
      rw [ha] at h
      refine ⟨h.1, fun slot b hslot => ?_⟩
      have hzero := bounded_zero hmessage ha hstop
      obtain ⟨objs, rfl, hcount, -⟩ := hslot
      rw [ha, hzero] at hcount
      obtain rfl : objs = [] := List.eq_nil_of_length_eq_zero (Nat.le_zero.mp hcount)
      exact writes_nothing hmessage h.2 (by rw [ha, hzero]; rfl) b
  | unbounded =>
      rw [ha] at h
      refine ⟨h.1, fun slot b _ => ?_⟩
      exact writes_nothing hmessage h.2 (by rw [ha]; exact elements_unbounded slot) b

theorem consumesSeq_of_agrees {m : NamedMember} (hmessage : m.typeId = .message)
    (ha : m.array = .single) (h : m.looksLikeHeader = m.isHeader) : ConsumesSeq m := by
  intro s slot
  have hskip : skipSeqOf m s = skipSeq s m.name (eraseAll m.members) := by
    unfold skipSeqOf skipSeq
    rw [← h]
    rfl
  rw [hskip]
  obtain ⟨name, typeId, array, messageNamespace, messageName, subMembers⟩ := m
  dsimp only at hmessage ha ⊢
  subst hmessage ha
  exact deserializeMember_message name (eraseAll subMembers) s slot

/-! ## Where it does not -/

/-- The sample value of a member. -/
def sampleSlot (m : NamedMember) : Slot :=
  (List.replicate (sampleCount m.array) (sample (eraseAll m.members))).map .msg

theorem sampleSlot_isSlotOf (m : NamedMember) : IsSlotOf m (sampleSlot m) := by
  refine ⟨_, rfl, ?_, ?_⟩
  · rw [List.length_replicate]
    exact sampleCount_fits m.array
  · intro fields hfields
    rw [List.eq_of_mem_replicate hfields]
    exact sample_hasType _

/-- What the encoder writes for the sample value of a member it does not stop at. -/
theorem sampleSlot_written {m : NamedMember} (hmessage : m.typeId = .message)
    (hstop : firstStop (memberPlan m.erase) = none) (b : WriteBuffer) :
    ∃ b', serializeMember (sampleSlot m) b m.erase = .ok (true, b')
      ∧ b.Wrote ((if m.array.arraySize == 0 && m.looksLikeHeader then leBytes 4 0 else [])
        ++ (reached m.array (sampleSlot m)).flatMap
          fun e => emits e.fields (eraseAll m.members)) b' := by
  obtain ⟨objs, hobjs, hcount, htyped⟩ := sampleSlot_isSlotOf m
  obtain ⟨name, typeId, array, messageNamespace, messageName, subMembers⟩ := m
  dsimp only at hmessage hcount htyped ⊢
  subst hmessage
  rw [erase] at hstop ⊢
  have hlen : array.Fits (objs.map Elem.msg).length := by rwa [List.length_map]
  have hinner : ∀ e ∈ objs.map Elem.msg, ∀ b : WriteBuffer,
      Ends (firstStop (plan (eraseAll subMembers))) (emits e.fields (eraseAll subMembers)) b
        (serializedStructToRos1 e.fields b (eraseAll subMembers)) := by
    intro e he b
    obtain ⟨fields, hfields, rfl⟩ := List.mem_map.mp he
    exact serialize_ends (htyped fields hfields) b
  have hends := messages_ends name hlen hinner b
  rw [hstop, memberEmits_message] at hends
  rw [hobjs]
  exact hends

/-- What a correct encoder writes for the sample value of a member. -/
theorem reference_written {m : NamedMember}
    (hstop : firstStop (plan (eraseAll m.members)) = none) (b : WriteBuffer) :
    ∃ b', writeEach (fun e b => do
        let b ← writeSeqOf m b
        serializedStructToRos1 e.fields b (eraseAll m.members)) (sampleSlot m) b = .ok (true, b')
      ∧ b.Wrote ((sampleSlot m).flatMap fun e =>
        (if m.isHeader then leBytes 4 0 else []) ++ emits e.fields (eraseAll m.members)) b' := by
  obtain ⟨objs, hobjs, -, htyped⟩ := sampleSlot_isSlotOf m
  have heach : ∀ e ∈ sampleSlot m, ∀ b : WriteBuffer, Ends none
      ((if m.isHeader then leBytes 4 0 else []) ++ emits e.fields (eraseAll m.members)) b (do
        let b ← writeSeqOf m b
        serializedStructToRos1 e.fields b (eraseAll m.members)) := by
    intro e he b
    rw [hobjs] at he
    obtain ⟨fields, hfields, rfl⟩ := List.mem_map.mp he
    have hends : ∀ b : WriteBuffer, Ends none (emits fields (eraseAll m.members)) b
        (serializedStructToRos1 fields b (eraseAll m.members)) :=
      serialize_ok (htyped fields hfields) hstop
    unfold writeSeqOf
    cases m.isHeader with
    | false => exact hends b
    | true =>
        obtain ⟨b₁, hwrite, hwrote⟩ := b.bufferWrite_all (length_leBytes 4 0)
        rw [if_pos rfl, if_pos rfl, hwrite]
        exact Ends.after hwrote (hends b₁)
  exact writeEach_ends heach (Or.inr rfl) b

/-- A member without elements for which nothing is written is not taken for a header. -/
theorem looks_of_nothing {m : NamedMember} (hmessage : m.typeId = .message)
    (hstop : firstStop (memberPlan m.erase) = none) (hsize : m.array.arraySize = 0)
    (h : serializeMember (sampleSlot m) (.new 0) m.erase = .ok (true, .new 0)) :
    m.looksLikeHeader = false := by
  obtain ⟨b', hok, hwrote⟩ := sampleSlot_written hmessage hstop (.new 0)
  rw [h] at hok
  obtain rfl := (Prod.mk.inj (Except.ok.inj hok)).2
  have hlen := hwrote.writeLen
  rw [hsize] at hlen
  cases hlooks : m.looksLikeHeader with
  | false => rfl
  | true =>
      rw [hlooks, List.length_append] at hlen
      simp at hlen

theorem length_flatMap_sample (m : NamedMember) (f : Elem → List UInt8) :
    ((sampleSlot m).flatMap f).length
      = sampleCount m.array * (f (.msg (sample (eraseAll m.members)))).length := by
  unfold sampleSlot
  rw [List.flatMap_map, List.length_flatMap, List.map_replicate, List.sum_replicate, smul_eq_mul]

theorem agrees_of_writesSeq {m : NamedMember} (hmessage : m.typeId = .message)
    (hstop : firstStop (memberPlan m.erase) = none) (h : WritesSeq m) : SeqAgrees m := by
  obtain ⟨b', hok, hwrote⟩ := sampleSlot_written hmessage hstop (.new 0)
  have hslot := sampleSlot_isSlotOf m
  unfold WritesSeq at h
  unfold SeqAgrees
  cases ha : m.array with
  | single =>
      rw [ha] at h hwrote
      obtain ⟨b'', hok', hwrote'⟩ :=
        reference_written (noStop_inside hmessage (Or.inl ha) hstop) (.new 0)
      rw [← h _ _ hslot, hok] at hok'
      obtain rfl := (Prod.mk.inj (Except.ok.inj hok')).2
      have hlen := hwrote.writeLen.symm.trans hwrote'.writeLen
      have hone : sampleSlot m = [.msg (sample (eraseAll m.members))] := by
        unfold sampleSlot
        rw [ha]
        rfl
      rw [hone] at hlen
      simp only [reached, List.flatMap_singleton, List.length_append] at hlen
      cases hlooks : m.looksLikeHeader <;> cases hheader : m.isHeader <;>
        simp [hlooks, hheader, ArraySpec.arraySize] at hlen ⊢
  | fixed size =>
      dsimp only
      rw [ha] at h hwrote
      by_cases hpos : 0 < size
      · rw [if_pos hpos]
        obtain ⟨b'', hok', hwrote'⟩ :=
          reference_written (noStop_inside hmessage (Or.inr ⟨size, ha, hpos⟩) hstop) (.new 0)
        rw [← h _ _ hslot, hok] at hok'
        obtain rfl := (Prod.mk.inj (Except.ok.inj hok')).2
        have hlen := hwrote.writeLen.symm.trans hwrote'.writeLen
        have hne : ((ArraySpec.fixed size).arraySize == 0) = false := by
          rw [beq_eq_false_iff_ne]
          exact Nat.ne_of_gt hpos
        rw [hne, Bool.false_and, if_neg (by simp), List.nil_append, reached, length_flatMap_sample,
          length_flatMap_sample, ha] at hlen
        cases hheader : m.isHeader with
        | false => rfl
        | true =>
            -- four bytes more for each element
            rw [hheader, if_pos rfl, List.length_append, length_leBytes, Nat.mul_add] at hlen
            have : sampleCount (.fixed size) = size := rfl
            omega
      · rw [if_neg hpos]
        obtain rfl : size = 0 := by omega
        refine looks_of_nothing hmessage hstop (by rw [ha]; rfl) ?_
        have hempty : sampleSlot m = [] := by
          unfold sampleSlot
          rw [ha]
          rfl
        rw [h _ _ hslot, hempty]
        rfl
  | bounded bound =>
      rw [ha] at h
      have hzero := bounded_zero hmessage ha hstop
      refine ⟨h.1, looks_of_nothing hmessage hstop (by rw [ha, hzero]; rfl) (h.2 _ _ hslot)⟩
  | unbounded =>
      rw [ha] at h
      exact ⟨h.1, looks_of_nothing hmessage hstop (by rw [ha]; rfl) (h.2 _ _ hslot)⟩

/--
**Where the `seq` is handled right**: the encoder stops in the type, or every message member
it reaches is one the code decides right.
-/
theorem seq_handled_iff (members : List NamedMember) :
    SeqHandled members ↔
      (firstStop (plan (eraseAll members)) = none → ∀ m, Reached members m → SeqAgrees m) := by
  constructor
  · rintro ⟨hencode, -⟩ hstop m hreach
    obtain ⟨hmessage, hm⟩ := hreach.noStop hstop
    exact agrees_of_writesSeq hmessage hm
      (hencode (.new 0) ((encodable_iff _ _).mpr hstop) m hreach)
  · intro hagrees
    refine ⟨fun b hencodable m hreach => ?_, fun msgObj hdecodable m hreach => ?_⟩
    · have hstop := (encodable_iff _ b).mp hencodable
      obtain ⟨hmessage, hm⟩ := hreach.noStop hstop
      exact writesSeq_of_agrees hmessage hm (hagrees hstop m hreach)
    · -- what the decoder accepts the encoder goes through, and none of it is an array
      have hsupported := decodable_supported hdecodable
      obtain ⟨hmessage, hsingle⟩ := hreach.supported hsupported
      have hm := hagrees ((supported_iff _).mp hsupported).1 m hreach
      unfold SeqAgrees at hm
      rw [hsingle] at hm
      exact consumesSeq_of_agrees hmessage hsingle hm

/-- A user's message in a member called `header`, with a stamp of its own. -/
def metaType : List NamedMember :=
  [⟨"header", .message, .single, "my_msgs::msg", "Meta",
    [⟨"stamp", .uint32, .single, "", "", []⟩]⟩]

/-- Its value is sent with four bytes too many in front, and read four bytes too late. -/
theorem meta_not_handled :
    serializedStructToRos1 [[.msg [[.raw [1, 2, 3, 4]]]]] (.new 0) (eraseAll metaType)
        = .ok (true, ⟨8, [0, 0, 0, 0, 1, 2, 3, 4], by decide⟩)
      ∧ deserializeRos1ToStruct (ofBuffer [1, 2, 3, 4, 5, 6, 7, 8]) [] (eraseAll metaType)
        = .ok (true, [[.msg [[.raw [5, 6, 7, 8]]]]], ⟨some [1, 2, 3, 4, 5, 6, 7, 8], 8, 8⟩)
      ∧ ¬SeqHandled metaType := by
  refine ⟨rfl, rfl, ?_⟩
  rintro ⟨hencode, -⟩
  have hreach : Reached metaType ⟨"header", .message, .single, "my_msgs::msg", "Meta",
      [⟨"stamp", .uint32, .single, "", "", []⟩]⟩ := Reached.here (by simp [metaType]) rfl
  have hagrees := agrees_of_writesSeq rfl rfl
    (hencode (.new 0) ((encodable_iff _ _).mpr rfl) _ hreach)
  exact absurd hagrees (by unfold SeqAgrees; decide)

end RosserialServer
