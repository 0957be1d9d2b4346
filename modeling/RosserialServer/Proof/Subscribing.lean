import RosserialServer.Proof.Exactness
import RosserialServer.Proof.Framing
import RosserialServer.RosAdapter.TopicHandle

/-!
# From ROS 2 to the device

`callback` frames whatever `subscribe` returns, and `subscribe` returns its buffer also
when `rmw_deserialize` has failed and when the encoder has given up half way. Only an
exception keeps a frame from the queue. So the frame carries a whole message exactly when
the conversion went through to the end, left nothing out, and fits the length field
(`callback_whole_iff`).
-/

namespace RosserialServer

open Bytes Outcome StreamDeserialization

/-- The bytes of a packet determine it. -/
theorem Packet.bytes_inj {p q : Packet} (h : p.bytes = q.bytes) : p = q := by
  obtain ⟨lo, hi, t0, t1, hlen, htopic, hp⟩ := p.bytes_eq
  obtain ⟨lo', hi', t0', t1', hlen', htopic', hq⟩ := q.bytes_eq
  rw [hp, hq] at h
  simp only [List.cons_append, List.nil_append, List.cons.injEq] at h
  obtain ⟨-, -, -, -, -, ht0, ht1, hrest⟩ := h
  obtain ⟨hpay, hcheck⟩ := List.append_inj' hrest rfl
  have hid : p.topicId = q.topicId := by rw [← htopic, ← htopic', ht0, ht1]
  have hck : p.checksum = q.checksum := by simpa using hcheck
  cases p
  cases q
  subst hid hck hpay
  rfl

/-- Every message `write_to_serial` is given is queued behind the others, as one packet. -/
theorem writeToSerial_spec (b : AsyncWriteBuffer) (serialMsg : WriteBuffer) (topicId : UInt16) :
    ∃ started, b.writeToSerial serialMsg topicId
      = .ok (⟨b.sendBufs ++ [(framed serialMsg topicId).bytes]⟩, started) := by
  obtain ⟨writeBuf, hpack, hbytes⟩ := packagingMsg_spec serialMsg topicId
  unfold AsyncWriteBuffer.writeToSerial AsyncWriteBuffer.enqueue
  rw [hpack, ok_bind, hbytes]
  cases hempty : b.sendBufs.isEmpty with
  | true => exact ⟨_, rfl⟩
  | false => exact ⟨_, rfl⟩

variable {sub : SerialSubscriber} {deserialized : Except StdException (Option MsgObject)}

/-- What `subscribe` returns is queued, whatever it is. -/
theorem callback_of_buffer {serialMsg : WriteBuffer}
    (h : (sub.streamDeserialized.subscribe deserialized).2 = .ok serialMsg)
    (writter : AsyncWriteBuffer) :
    ∃ started, sub.callback deserialized writter
      = .ok (⟨writter.sendBufs ++ [(framed serialMsg sub.topicInfo.topicId).bytes]⟩, started) := by
  obtain ⟨started, hwrite⟩ := writeToSerial_spec writter serialMsg sub.topicInfo.topicId
  unfold SerialSubscriber.callback
  rw [h, ok_bind, hwrite]
  exact ⟨started, rfl⟩

theorem callback_of_failure {f : Failure}
    (h : (sub.streamDeserialized.subscribe deserialized).2 = .error f)
    (writter : AsyncWriteBuffer) : sub.callback deserialized writter = .error f := by
  unfold SerialSubscriber.callback
  rw [h]
  rfl

/-- The frame of a whole message, made of a conversion that went through to the end. -/
def IsWhole (sub : SerialSubscriber) (deserialized : Except StdException (Option MsgObject))
    (frame : List UInt8) : Prop :=
  ∃ (members : MessageMembers) (obj : MsgObject) (b : WriteBuffer) (p : Packet),
    sub.streamDeserialized.members = some members ∧ deserialized = .ok (some obj)
      ∧ serializedStructToRos1 obj (.new members.sizeOf) members.members = .ok (true, b)
      ∧ frame = p.bytes ∧ p.topicId = sub.topicInfo.topicId
      ∧ p.payload = packed writesSeq obj members.members

/-- `callback` leaves the queue alone, or appends the frame of a whole message. -/
def WholeOrNothing (sub : SerialSubscriber)
    (deserialized : Except StdException (Option MsgObject)) : Prop :=
  ∀ writter : AsyncWriteBuffer,
    match sub.callback deserialized writter with
    | .error (.thrown _) => True
    | .error (.undefined _) => False
    | .ok (writter', _) =>
        writter'.sendBufs = writter.sendBufs
          ∨ ∃ frame, writter'.sendBufs = writter.sendBufs ++ [frame]
            ∧ IsWhole sub deserialized frame

/-- The frame is there, so it has to be that of a whole message. -/
theorem whole_of_buffer {serialMsg : WriteBuffer}
    (h : (sub.streamDeserialized.subscribe deserialized).2 = .ok serialMsg) :
    WholeOrNothing sub deserialized
      ↔ IsWhole sub deserialized (framed serialMsg sub.topicInfo.topicId).bytes := by
  constructor
  · intro hall
    have hone := hall ⟨[]⟩
    obtain ⟨started, hrun⟩ := callback_of_buffer h ⟨[]⟩
    rw [hrun] at hone
    rcases hone with hsame | ⟨frame, happend, hwhole⟩
    · exact absurd hsame (by simp)
    · obtain rfl : (framed serialMsg sub.topicInfo.topicId).bytes = frame := by simpa using happend
      exact hwhole
  · intro hwhole writter
    obtain ⟨started, hrun⟩ := callback_of_buffer h writter
    rw [hrun]
    exact Or.inr ⟨_, rfl, hwhole⟩

theorem whole_of_thrown {e : StdException}
    (h : (sub.streamDeserialized.subscribe deserialized).2 = .error (.thrown e)) :
    WholeOrNothing sub deserialized := by
  intro writter
  rw [callback_of_failure h]
  trivial

theorem not_whole_of_undefined {what : String}
    (h : (sub.streamDeserialized.subscribe deserialized).2 = .error (.undefined what)) :
    ¬WholeOrNothing sub deserialized := by
  intro hall
  have hone := hall ⟨[]⟩
  rw [callback_of_failure h] at hone
  exact hone

/--
When `callback` leaves nothing half converted: `rmw_deserialize` or the encoder throws, or
the encoder goes through to the end, meets no sequence of messages, and the encoding fits
the length field.
-/
def ConvertsWhole (sub : SerialSubscriber)
    (deserialized : Except StdException (Option MsgObject)) : Prop :=
  match sub.streamDeserialized.members with
  | none => False
  | some members =>
      sub.streamDeserialized.typeCdrSupport = true
        ∧ match deserialized with
          | .error _ => True
          | .ok none => False
          | .ok (some obj) =>
              match firstStop (plan members.members) with
              | some .thrown => True
              | some .refused => False
              | some .undefined => False
              | none => Step.skipped ∉ plan members.members
                  ∧ (packed writesSeq obj members.members).length < 2 ^ 16

/-- What the encoder wrote is the payload of a whole message when nothing is missing. -/
theorem framed_whole_iff {members : List MessageMember} {obj : MsgObject}
    (hty : HasType members obj) (hstop : firstStop (plan members) = none) {size : Nat}
    {b : WriteBuffer} (hwrote : (WriteBuffer.new size).Wrote (emits obj members) b)
    (topicId : UInt16) :
    (framed b topicId).payload = packed writesSeq obj members
      ↔ Step.skipped ∉ plan members ∧ (packed writesSeq obj members).length < 2 ^ 16 := by
  have hlen : b.writeLen = (emits obj members).length := by
    rw [hwrote.writeLen]
    exact Nat.zero_add _
  have hpay := length_framed_payload b topicId
  obtain ⟨hle, hlt⟩ := emits_longer hty hstop
  constructor
  · intro heq
    rw [heq] at hpay
    refine ⟨fun hmem => ?_, by omega⟩
    -- a length reduced modulo 2^16 does not make up for what is missing
    have := hlt hmem
    have := Nat.mod_le b.writeLen (2 ^ 16)
    omega
  · rintro ⟨hskip, hfits⟩
    have hall := emits_writesSeq hty hstop hskip
    rw [framed_payload topicId (by rw [hlen, hall]; exact hfits), hwrote.written, hall]
    rfl

section Subscribe

variable {members : MessageMembers} (hmembers : sub.streamDeserialized.members = some members)
  (hsupport : sub.streamDeserialized.typeCdrSupport = true)

/-! What `subscribe` returns, by what `rmw_deserialize` does. -/

theorem subscribe_unset (h : sub.streamDeserialized.members = none) :
    (sub.streamDeserialized.subscribe deserialized).2
      = .error (.undefined "members_ is used before it is set") := by
  unfold subscribe
  rw [h]

include hmembers in
theorem subscribe_unsupported (h : sub.streamDeserialized.typeCdrSupport = false) :
    (sub.streamDeserialized.subscribe deserialized).2
      = .error (.undefined "type_cdr_support_ is used before it is set") := by
  unfold subscribe
  rw [hmembers, h]
  rfl

include hmembers hsupport

theorem subscribe_error (e : StdException) :
    (sub.streamDeserialized.subscribe (.error e)).2 = .error (.thrown e) := by
  unfold subscribe
  rw [hmembers, hsupport]
  rfl

theorem subscribe_failed :
    (sub.streamDeserialized.subscribe (.ok none)).2 = .ok (.new members.sizeOf) := by
  unfold subscribe
  rw [hmembers, hsupport]
  rfl

theorem subscribe_converted {obj : MsgObject} {ok : Bool} {b : WriteBuffer}
    (h : serializedStructToRos1 obj (.new members.sizeOf) members.members = .ok (ok, b)) :
    (sub.streamDeserialized.subscribe (.ok (some obj))).2 = .ok b := by
  unfold subscribe
  rw [hmembers, hsupport]
  dsimp only
  rw [if_neg (by simp), h]

theorem subscribe_stopped {obj : MsgObject} {f : Failure}
    (h : serializedStructToRos1 obj (.new members.sizeOf) members.members = .error f) :
    (sub.streamDeserialized.subscribe (.ok (some obj))).2 = .error f := by
  unfold subscribe
  rw [hmembers, hsupport]
  dsimp only
  rw [if_neg (by simp), h]

theorem converted_whole_iff {obj : MsgObject} (hty : HasType members.members obj) :
    WholeOrNothing sub (.ok (some obj)) ↔
      match firstStop (plan members.members) with
      | some .thrown => True
      | some .refused => False
      | some .undefined => False
      | none => Step.skipped ∉ plan members.members
          ∧ (packed writesSeq obj members.members).length < 2 ^ 16 := by
  have hends := serialize_ends hty (.new members.sizeOf)
  have hsame : ∀ {members' : MessageMembers} {obj' : MsgObject},
      sub.streamDeserialized.members = some members' →
      (.ok (some obj) : Except StdException (Option MsgObject)) = .ok (some obj') →
      members' = members ∧ obj' = obj := by
    intro members' obj' hm ho
    rw [hmembers] at hm
    exact ⟨(Option.some.inj hm).symm, (Option.some.inj (Except.ok.inj ho)).symm⟩
  cases hstop : firstStop (plan members.members) with
  | some why =>
      rw [hstop] at hends
      cases why with
      | refused =>
          obtain ⟨b, hr⟩ := hends
          rw [whole_of_buffer (subscribe_converted hmembers hsupport hr)]
          refine iff_of_false ?_ (by simp)
          -- the prefix that was written is framed, and the result was `false`
          rintro ⟨members', obj', b', _, hm, ho, hok, -⟩
          obtain ⟨rfl, rfl⟩ := hsame hm ho
          rw [hr] at hok
          exact absurd (Prod.mk.inj (Except.ok.inj hok)).1 (by simp)
      | thrown =>
          obtain ⟨e, hr⟩ := hends
          exact iff_of_true (whole_of_thrown (subscribe_stopped hmembers hsupport hr)) trivial
      | undefined =>
          obtain ⟨what, hr⟩ := hends
          exact iff_of_false (not_whole_of_undefined (subscribe_stopped hmembers hsupport hr))
            (by simp)
  | none =>
      rw [hstop] at hends
      obtain ⟨b, hr, hwrote⟩ := hends
      rw [whole_of_buffer (subscribe_converted hmembers hsupport hr)]
      dsimp only
      rw [← framed_whole_iff hty hstop hwrote sub.topicInfo.topicId]
      constructor
      · rintro ⟨members', obj', b', p, hm, ho, -, hframe, -, hpay⟩
        obtain ⟨rfl, rfl⟩ := hsame hm ho
        rw [Packet.bytes_inj hframe]
        exact hpay
      · intro hpay
        exact ⟨members, obj, b, framed b sub.topicInfo.topicId, hmembers, rfl, hr, rfl, rfl, hpay⟩

end Subscribe

/--
**When nothing half converted is queued.** In the other cases the queue gets the frame of
an empty or truncated payload, or of one that misses the elements of a sequence.
-/
theorem callback_whole_iff (sub : SerialSubscriber)
    (deserialized : Except StdException (Option MsgObject))
    (hty : ∀ members obj, sub.streamDeserialized.members = some members →
      deserialized = .ok (some obj) → HasType members.members obj) :
    WholeOrNothing sub deserialized ↔ ConvertsWhole sub deserialized := by
  unfold ConvertsWhole
  cases hmembers : sub.streamDeserialized.members with
  | none => exact iff_of_false (not_whole_of_undefined (subscribe_unset hmembers)) (by simp)
  | some members =>
      dsimp only
      cases hsupport : sub.streamDeserialized.typeCdrSupport with
      | false =>
          exact iff_of_false (not_whole_of_undefined (subscribe_unsupported hmembers hsupport))
            (by simp)
      | true =>
          cases deserialized with
          | error e =>
              exact iff_of_true (whole_of_thrown (subscribe_error hmembers hsupport e)) ⟨rfl, trivial⟩
          | ok result =>
              cases result with
              | none =>
                  rw [whole_of_buffer (subscribe_failed hmembers hsupport)]
                  refine iff_of_false ?_ (by simp)
                  rintro ⟨_, _, _, _, -, hnone, -⟩
                  exact absurd hnone (by simp)
              | some obj =>
                  rw [converted_whole_iff hmembers hsupport (hty members obj hmembers rfl)]
                  exact (and_iff_right rfl).symm

/-- A subscription to a `std_msgs/String` on topic 101. -/
def textSubscriber : SerialSubscriber where
  topicInfo :=
    { topicId := 101
      topicName := chars "chatter"
      messageType := chars "std_msgs/msg/String"
      md5sum := []
      bufferSize := 512 }
  streamDeserialized :=
    { members := some {
        sizeOf := 32
        members := [⟨"data", .string, .single, []⟩]
        initFunction := some [[.str []]]
        finiFunction := true }
      typeCdrSupport := true }

theorem callback_whole_text : WholeOrNothing textSubscriber (.ok (some [[.str [0x68, 0x69]]])) := by
  refine (callback_whole_iff _ _ ?_).mpr ?_
  · intro members obj hmembers hobj
    obtain rfl := Option.some.inj hmembers
    obtain rfl := Option.some.inj (Except.ok.inj hobj)
    exact HasType.texts [[0x68, 0x69]] (Or.inl rfl) rfl HasType.nil
  · refine ⟨rfl, ?_, ?_⟩
    · show Step.skipped ∉ [Step.written]
      decide
    · show (leBytes 4 2 ++ [0x68, 0x69]).length < 2 ^ 16
      decide

/-- A message `rmw_deserialize` could not read reaches the device as an empty one. -/
theorem callback_not_whole :
    textSubscriber.callback (.ok none) ⟨[]⟩
        = .ok (⟨[[0xFF, 0xFE, 0, 0, 0xFF, 101, 0, 154]]⟩, some [0xFF, 0xFE, 0, 0, 0xFF, 101, 0, 154])
      ∧ ¬WholeOrNothing textSubscriber (.ok none) := by
  refine ⟨rfl, fun h => ?_⟩
  rw [whole_of_buffer (subscribe_failed rfl rfl)] at h
  obtain ⟨_, _, _, _, -, hnone, -⟩ := h
  exact absurd hnone (by simp)

end RosserialServer
