import RosserialServer.Proof.Publishing

/-!
# What becomes of a bad body

A body that is too short or malformed for its type should be reported and dropped, and the
session should go on. A refused registration is: `get_topic_info` logs it and returns false,
and nothing is registered. A refused message is not: its publisher logs it, and publishes
what the decoder left; and a body that ends early throws past everything. So the bodies of
data topics that are contained are those that are decoded (`bad_body_contained_iff`).
-/

namespace RosserialServer

open Bytes Outcome RosStream StreamDeserialization

/-- The environment with given answers of the rmw calls, none of which throws. -/
def RosEnv.answering (env : RosEnv) (init : Bool) (serialize : MsgObject → Option (List UInt8)) :
    RosEnv :=
  { env with
    rmwSerializedMessageInit := init
    rmwSerialize := fun msgObj => .ok (serialize msgObj) }

/-- The body is too short or malformed for what its callback reads. -/
def Refused (body : List UInt8) : Option Callback → Prop
  | none => False
  | some .createPublisher => ∀ rest, scan registration body ≠ .accepted rest
  | some .createSubscriber => ∀ rest, scan registration body ≠ .accepted rest
  | some (.handle pub) => ∃ members, pub.streamDeserialized.members = some members
      ∧ ∀ rest, scan (layout members.members) body ≠ .accepted rest

/-- The parse of the body returns false, which is logged wherever it does. -/
def Reported (body : List UInt8) : Option Callback → Prop
  | none => False
  | some .createPublisher => ∃ info s, getTopicInfo {} (ofBuffer body) = .ok (false, info, s)
  | some .createSubscriber => ∃ info s, getTopicInfo {} (ofBuffer body) = .ok (false, info, s)
  | some (.handle pub) => ∃ members obj s, pub.streamDeserialized.members = some members
      ∧ deserializeRos1ToStruct (ofBuffer body) (members.initFunction.getD []) members.members
        = .ok (false, obj, s)

/-- A validated body is handled, and a bad one is reported and dropped. -/
structure BodyContained (env : RosEnv) (session : Session Tables) (p : Packet) : Prop where
  rearmed : (readBody (route env) session (ofBuffer (p.payload ++ [p.checksum])) p.topicId).2
    = readAsyncHead
  reported : Refused p.payload (session.tables.callback p.topicId) →
    Reported p.payload (session.tables.callback p.topicId)
  /-- No table changes, and no call that is made publishes. -/
  dropped : Refused p.payload (session.tables.callback p.topicId) → ∃ calls,
    (readBody (route env) session (ofBuffer (p.payload ++ [p.checksum])) p.topicId).1.tables
        = { session.tables with rosCalls := session.tables.rosCalls ++ calls }
      ∧ ∀ cdr, RosCall.publish cdr ∉ calls

/-- A body its callback does no harm with. -/
def Harmless (env : RosEnv) (body : List UInt8) : Option Callback → Prop
  | none => True
  | some .createPublisher => Registers env body
  | some .createSubscriber => Registers env body
  | some (.handle pub) => ∃ members rest, pub.streamDeserialized = ⟨some members, true⟩
      ∧ scan (layout members.members) body = .accepted rest

/-! ## Refused registrations -/

/-- What a refused body leaves of a registration: no change, and the report. -/
theorem refused_registration {env : RosEnv} {body : List UInt8} (h : Registers env body)
    (hrefused : ∀ rest, scan registration body ≠ .accepted rest) :
    ∃ info s, getTopicInfo {} (ofBuffer body) = .ok (false, info, s) := by
  have hagrees := getTopicInfo_agrees {} (reading_ofBuffer body)
  unfold Registers at h
  cases hscan : scan registration body with
  | accepted rest => exact absurd hscan (hrefused rest)
  | rejected =>
      rw [hscan] at hagrees
      exact hagrees
  | starved =>
      rw [hscan] at h
      exact absurd h id

/-! ## What the callback leaves -/

theorem RosEnv.NoThrow.answering {env : RosEnv} (h : env.NoThrow) (init : Bool)
    (serialize : MsgObject → Option (List UInt8)) : (env.answering init serialize).NoThrow where
  createGenericPublisher := h.createGenericPublisher
  createGenericSubscription := h.createGenericSubscription
  rmwSerialize := fun msgObj => succeeds_ok (serialize msgObj)
  publish := h.publish

/-- The tables behind a validated body are those its callback leaves. -/
theorem readBody_tables {env : RosEnv} {session : Session Tables} {p : Packet}
    (h : p.accepted = true) {tables : Tables}
    (hroute : route env p.topicId (ofBuffer p.payload) session.tables = .ok tables) :
    (readBody (route env) session (ofBuffer (p.payload ++ [p.checksum])) p.topicId).1.tables
      = tables := by
  have hshort := p.short
  rw [readBody_spec _ _ _ (by omega)]
  unfold Packet.accepted at h
  unfold routeBody
  rw [if_pos h, hroute]

/-- A publisher whose parse fails publishes, if rmw lets it. -/
theorem refused_message_published {env : RosEnv} {session : Session Tables} {p : Packet}
    (h : p.accepted = true) {pub : SerialPublisher} {members : MessageMembers}
    (hcallback : session.tables.callback p.topicId = some (.handle pub))
    (hadapter : pub.streamDeserialized = ⟨some members, true⟩)
    (hrefused : scan (layout members.members) p.payload = .rejected) :
    ¬BodyContained (env.answering true fun _ => some []) session p := by
  intro hcontained
  have hrejected : Refused p.payload (session.tables.callback p.topicId) := by
    rw [hcallback]
    refine ⟨members, by rw [hadapter], fun rest => ?_⟩
    rw [hrefused]
    simp
  obtain ⟨calls, htables, hsilent⟩ := hcontained.dropped hrejected
  have hagrees := deserialize_agrees (reading_ofBuffer p.payload)
    (members.initFunction.getD []) members.members
  rw [hrefused] at hagrees
  obtain ⟨obj, s, hrun⟩ := hagrees
  have hpublished := (publish_mem_iff (env.answering true fun _ => some []) members
    (ofBuffer p.payload) []).mpr ⟨false, obj, s, hrun, rfl, rfl⟩
  have hrearmed := hcontained.rearmed
  have hshort := p.short
  have haccepted := h
  unfold Packet.accepted at haccepted
  cases hhandle : pub.handle (env.answering true fun _ => some []) (ofBuffer p.payload) with
  | mk made result =>
      have hmade : made = (publish (env.answering true fun _ => some []) ⟨some members, true⟩
          (ofBuffer p.payload)).1 := by
        rw [← hadapter]
        exact (congrArg Prod.fst hhandle).symm
      cases result with
      | error f =>
          rw [readBody_spec _ _ _ (by omega), routeBody, if_pos haccepted, route, hcallback]
            at hrearmed
          dsimp only at hrearmed
          rw [hhandle] at hrearmed
          exact absurd hrearmed (by simp [readAsyncHead])
      | ok u =>
          have hroute : route (env.answering true fun _ => some []) p.topicId (ofBuffer p.payload)
              session.tables = .ok { session.tables with
                rosCalls := session.tables.rosCalls ++ made } := by
            rw [route, hcallback]
            dsimp only
            rw [hhandle]
          rw [readBody_tables h hroute] at htables
          have hcalls := List.append_cancel_left (congrArg Tables.rosCalls htables)
          rw [← hmade, hcalls] at hpublished
          exact hsilent [] hpublished

/-- A callback that returns contains a body if a bad one is reported and changes nothing. -/
theorem BodyContained.of_refusals {env : RosEnv} (henv : env.NoThrow) {session : Session Tables}
    {p : Packet} (h : p.accepted = true)
    (hcontained : Contained env p.payload (session.tables.callback p.topicId))
    (hbad : Refused p.payload (session.tables.callback p.topicId) →
      Reported p.payload (session.tables.callback p.topicId)
        ∧ route env p.topicId (ofBuffer p.payload) session.tables = .ok session.tables) :
    BodyContained env session p := by
  refine ⟨(readBody_rearms_iff henv session p h).mpr hcontained, fun hr => (hbad hr).1, ?_⟩
  intro hr
  refine ⟨[], ?_, by simp⟩
  rw [readBody_tables h (hbad hr).2, List.append_nil]

theorem createPublisher_refused {env : RosEnv} {tables : Tables} {body : List UInt8}
    (h : ∃ info s, getTopicInfo {} (ofBuffer body) = .ok (false, info, s)) :
    createPublisher env tables (ofBuffer body) = .ok tables := by
  obtain ⟨info, s, hget⟩ := h
  unfold createPublisher
  rw [hget]

theorem createSubscriber_refused {env : RosEnv} {tables : Tables} {body : List UInt8}
    (h : ∃ info s, getTopicInfo {} (ofBuffer body) = .ok (false, info, s)) :
    createSubscriber env tables (ofBuffer body) = .ok tables := by
  obtain ⟨info, s, hget⟩ := h
  unfold createSubscriber
  rw [hget]

/-- A body that does no harm is contained, whatever rmw answers. -/
theorem Harmless.contained {env : RosEnv} (henv : env.NoThrow) {session : Session Tables}
    {p : Packet} (h : p.accepted = true)
    (hharmless : Harmless env p.payload (session.tables.callback p.topicId)) (init : Bool)
    (serialize : MsgObject → Option (List UInt8)) :
    BodyContained (env.answering init serialize) session p := by
  refine BodyContained.of_refusals (henv.answering init serialize) h ?_ ?_
  · cases hcallback : session.tables.callback p.topicId with
    | none => trivial
    | some callback =>
        rw [hcallback] at hharmless
        cases callback with
        | createPublisher => exact hharmless
        | createSubscriber => exact hharmless
        | handle pub =>
            obtain ⟨members, rest, hadapter, hscan⟩ := hharmless
            refine ⟨members, by rw [hadapter], fun _ => by rw [hadapter], ?_⟩
            rw [hscan]
            trivial
  · unfold route
    cases hcallback : session.tables.callback p.topicId with
    | none => exact fun hbad => absurd hbad id
    | some callback =>
        rw [hcallback] at hharmless
        intro hbad
        cases callback with
        | createPublisher =>
            have hget := refused_registration hharmless hbad
            exact ⟨hget, createPublisher_refused hget⟩
        | createSubscriber =>
            have hget := refused_registration hharmless hbad
            exact ⟨hget, createSubscriber_refused hget⟩
        | handle pub =>
            obtain ⟨members, rest, hadapter, hscan⟩ := hharmless
            obtain ⟨members', hmembers, hnone⟩ := hbad
            rw [hadapter] at hmembers
            obtain rfl := Option.some.inj hmembers
            exact absurd hscan (hnone rest)

/--
**A bad body is contained exactly when its callback does no harm with it**, whatever the rmw
calls answer: a registration that is refused for a string that is too long, or whole and of a
type that loads; a message that its publisher decodes.
-/
theorem bad_body_contained_iff {env : RosEnv} (henv : env.NoThrow) (session : Session Tables)
    (p : Packet) (h : p.accepted = true) :
    (∀ init serialize, BodyContained (env.answering init serialize) session p)
      ↔ Harmless env p.payload (session.tables.callback p.topicId) := by
  constructor
  · intro hcontained
    -- the answers that show the most: everything succeeds
    have hserializes := hcontained true fun _ => some []
    have hreturns := (readBody_rearms_iff (henv.answering true _) session p h).mp
      hserializes.rearmed
    cases hcallback : session.tables.callback p.topicId with
    | none => trivial
    | some callback =>
        rw [hcallback] at hreturns
        cases callback with
        | createPublisher => exact hreturns
        | createSubscriber => exact hreturns
        | handle pub =>
            obtain ⟨members, hmembers, hcdr, hverdict⟩ := hreturns
            have hadapter : pub.streamDeserialized = ⟨some members, true⟩ := by
              rw [← hmembers, ← hcdr rfl]
            cases hscan : scan (layout members.members) p.payload with
            | accepted rest => exact ⟨members, rest, hadapter, hscan⟩
            | rejected =>
                exact absurd hserializes (refused_message_published h hcallback hadapter hscan)
            | starved =>
                rw [hscan] at hverdict
                exact absurd hverdict id
  · exact fun hharmless init serialize => hharmless.contained henv h init serialize

/-- A session in which a device has registered topic 125 as a `std_msgs/Bool`. -/
def boolSession : Session Tables where
  tables := { Tables.new with
    callback := Function.update Tables.new.callback 125
      (some (.handle (dataPublisher .boolean 1))) }
  dispatched := []

/-- A message with its one byte, and a registration with a name of 401 bytes. -/
theorem bad_body_contained_bool :
    (∀ init serialize,
      BodyContained ((dataEnv .boolean 1).answering init serialize) boolSession
        ⟨125, [1], 0x81, by decide⟩)
    ∧ ∀ init serialize,
      BodyContained ((dataEnv .boolean 1).answering init serialize) boolSession
        ⟨0, [125, 0, 0x91, 1, 0, 0], 0xF0, by decide⟩ := by
  have hvalue : Harmless (dataEnv .boolean 1) [1] (boolSession.tables.callback 125) :=
    ⟨dataType .boolean 1, [], rfl, rfl⟩
  have hlong : Harmless (dataEnv .boolean 1) [125, 0, 0x91, 1, 0, 0]
      (boolSession.tables.callback 0) := trivial
  exact ⟨(bad_body_contained_iff (dataEnv_noThrow .boolean 1) boolSession
      ⟨125, [1], 0x81, by decide⟩ (by decide)).mpr hvalue,
    (bad_body_contained_iff (dataEnv_noThrow .boolean 1) boolSession
      ⟨0, [125, 0, 0x91, 1, 0, 0], 0xF0, by decide⟩ (by decide)).mpr hlong⟩

/-- A message without its one byte ends the session. -/
theorem bad_body_contained_truncated :
    ¬∀ env : RosEnv, env.NoThrow → ∀ (session : Session Tables) (p : Packet),
      p.accepted = true → BodyContained env session p := by
  intro h
  have hend := (h (dataEnv .boolean 1) (dataEnv_noThrow .boolean 1) boolSession
    ⟨125, [], 0x82, by decide⟩ (by decide)).rearmed
  exact absurd hend (by decide)

end RosserialServer
