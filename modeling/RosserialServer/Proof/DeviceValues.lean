import RosserialServer.Proof.DeviceProgram
import RosserialServer.Proof.Endings
import RosserialServer.Proof.Reencoding

/-!
# Values from the device to ROS

`Understood` is what a device and its host owe each other: registrations that can be carried
out, and data packets that spell values of the type registered for them. Damaged packets may
be among them. Such a device cannot bring the node down (`device_harmless`), and when all it
sends has arrived, ROS gets the values and nothing else, in their order (`values_published`).

The point of the first is that nothing has to be assumed of the states in between: a packet
is judged by the registry of those before it, and the tables follow that registry.
-/

namespace RosserialServer

open Outcome RosStream StreamDeserialization

/-! ## What a device says -/

/-- What a call publishes. -/
def RosCall.published : RosCall → Option (List UInt8)
  | .publish cdr => some cdr
  | .rmwSerialize _ => none
  | .initFunction => none
  | .finiFunction => none

/-- `get_topic_info` returns, and if it returns `true`, what it has read is accepted. -/
def Readout (body : List UInt8) (accepts : TopicInfo → Prop) : Prop :=
  ∃ ok info s, getTopicInfo {} (ofBuffer body) = .ok (ok, info, s) ∧ (ok = true → accepts info)

/-- If the packet is a registration, it can be carried out or is refused. -/
structure Welcome (env : RosEnv) (d : UInt16 × List UInt8) : Prop where
  publisher : d.1 = TopicInfo.idPublisher →
    Readout d.2 fun info => ∃ pub, SerialPublisher.new env info = .ok pub
  subscriber : d.1 = TopicInfo.idSubscriber →
    Readout d.2 fun info => ∃ sub, SerialSubscriber.new env info = .ok sub

/--
The payload spells a value of the topic's type in the format the decoder reads (`Echo`), with
anything behind it; rmw serializes the value to `cdr`, and the topic takes it.
-/
def Carries (env : RosEnv) (item : TopicInfo × List UInt8) (cdr : List UInt8) : Prop :=
  ∃ pub members obj spelled again rest, SerialPublisher.new env item.1 = .ok pub
    ∧ pub.streamDeserialized = ⟨some members, true⟩
    ∧ item.2 = spelled ++ rest ∧ Echo members.members obj spelled again
    ∧ env.rmwSerializedMessageInit = true ∧ env.rmwSerialize obj = .ok (some cdr)
    ∧ env.publish cdr = .ok ()

/-- The host understands all that a device says, and makes these of the values. -/
structure Understood (env : RosEnv) (ps : List Packet) (cdrs : List (List UInt8)) : Prop where
  short : ∀ p ∈ ps, p.payload.length < readerCapacity
  own : ∀ d ∈ ps.filterMap Packet.delivered, ¬Usurps d
  welcome : ∀ d ∈ ps.filterMap Packet.delivered, Welcome env d
  values : List.Forall₂ (Carries env) (publishersOf (ps.filterMap Packet.delivered)).delivered cdrs

/-! ## What a publisher does with a value -/

/-- Destroying an object that has not been destroyed publishes nothing, and returns. -/
theorem finish_alive (finiFunction : Bool) (calls : List RosCall) :
    (finish finiFunction true calls).2 = .ok ()
      ∧ (finish finiFunction true calls).1.filterMap RosCall.published
        = calls.filterMap RosCall.published := by
  unfold finish
  cases finiFunction with
  | false => exact ⟨rfl, rfl⟩
  | true =>
      refine ⟨rfl, ?_⟩
      show (calls ++ [RosCall.finiFunction]).filterMap RosCall.published = _
      rw [List.filterMap_append]
      exact List.append_nil _

/-- **A value is published once, as what rmw makes of it.** -/
theorem handle_value {env : RosEnv} {info : TopicInfo} {payload cdr : List UInt8}
    {pub : SerialPublisher} (h : Carries env (info, payload) cdr)
    (hnew : SerialPublisher.new env info = .ok pub) (hlen : payload.length < 2 ^ 16) :
    (pub.handle env (ofBuffer payload)).2 = .ok ()
      ∧ (pub.handle env (ofBuffer payload)).1.filterMap RosCall.published = [cdr] := by
  obtain ⟨pub', members, obj, spelled, again, rest, hnew', hstream, hsplit, hecho, hinit, hserialize,
    hpublish⟩ := h
  dsimp only at hnew' hsplit
  obtain rfl : pub = pub' := Except.ok.inj (hnew.symm.trans hnew')
  have hreading : (ofBuffer payload).Reading (spelled ++ rest) := by
    rw [← hsplit]
    exact reading_ofBuffer payload
  obtain ⟨s, hread, -⟩ := hecho.read hreading (by rw [← hsplit]; omega) (members.initFunction.getD [])
  have hobject : publishObject env true members.finiFunction true obj
      = finish members.finiFunction true [.rmwSerialize obj, .publish cdr] := by
    unfold publishObject
    rw [if_neg (by rw [hinit]; simp), if_neg (by simp), hserialize]
    dsimp only
    rw [hpublish]
  obtain ⟨hok, hpublished⟩ :=
    finish_alive members.finiFunction [.rmwSerialize obj, .publish cdr]
  have hhandle : pub.handle env (ofBuffer payload)
      = ((if members.initFunction.isSome then [RosCall.initFunction] else [])
          ++ (finish members.finiFunction true [.rmwSerialize obj, .publish cdr]).1,
        (finish members.finiFunction true [.rmwSerialize obj, .publish cdr]).2) := by
    unfold SerialPublisher.handle
    rw [hstream]
    unfold publish
    dsimp only
    rw [hread]
    dsimp only
    rw [Bool.true_or, hobject]
    simp
  rw [hhandle]
  refine ⟨hok, ?_⟩
  rw [List.filterMap_append, hpublished]
  split
  · rfl
  · rfl

/-! ## No callback throws -/

section Returning

variable {env : RosEnv}

theorem getTopicInfo_registers {body : List UInt8} {accepts : TopicInfo → Prop}
    (h : Readout body accepts) {r : Except Failure Tables} {tables : Tables}
    {build : TopicInfo → Except Failure Tables}
    (hr : r = match getTopicInfo {} (ofBuffer body) with
      | .error e => .error (.thrown e)
      | .ok (false, _, _) => .ok tables
      | .ok (true, topicInfo, _) => build topicInfo)
    (hbuild : ∀ info, accepts info → ∃ tables', build info = .ok tables') :
    ∃ tables', r = .ok tables' := by
  obtain ⟨ok, info, s, hget, haccepts⟩ := h
  rw [hget] at hr
  cases ok with
  | false => exact ⟨tables, hr⟩
  | true =>
      obtain ⟨tables', hok⟩ := hbuild info (haccepts rfl)
      exact ⟨tables', hr.trans hok⟩

/-- **A packet that is welcome, and carries a value if it is for a topic, returns.** -/
theorem journalled_returns {session : Session Journal} {t : UInt16} {payload : List UInt8}
    (hsourced : Sourced env session) (hlisted : Listed session.dispatched session.tables)
    (hwelcome : Welcome env (t, payload)) (hlen : payload.length < 2 ^ 16)
    (hvalue : ∀ info, heard (t, payload) = some (.send t payload) →
      (publishersOf session.dispatched).owner t = some info → ∃ cdr, Carries env (info, payload) cdr) :
    ∃ journal, journalled env t (ofBuffer payload) session.tables = .ok journal := by
  obtain ⟨routing, hroute⟩ :
      ∃ routing, route env t (ofBuffer payload) session.tables.routing = .ok routing := by
    unfold route
    cases hc : session.tables.routing.callback t with
    | none => exact ⟨_, rfl⟩
    | some callback =>
        cases callback with
        | createPublisher =>
            refine getTopicInfo_registers (hwelcome.publisher (hsourced.publishers t hc)) rfl ?_
            rintro info ⟨pub, hnew⟩
            rw [hnew]
            exact ⟨_, rfl⟩
        | createSubscriber =>
            refine getTopicInfo_registers (hwelcome.subscriber (hsourced.subscribers t hc)) rfl ?_
            rintro info ⟨sub, hnew⟩
            rw [hnew]
            exact ⟨_, rfl⟩
        | handle pub =>
            have hpub : t ≠ TopicInfo.idPublisher := by
              rintro rfl
              rw [hlisted.publisher] at hc
              exact absurd hc (by simp)
            have hsub : t ≠ TopicInfo.idSubscriber := by
              rintro rfl
              rw [hlisted.subscriber] at hc
              exact absurd hc (by simp)
            have howner : (publishersOf session.dispatched).owner t = some pub.topicInfo := by
              rw [← hlisted.owner t hpub hsub, hc]
              rfl
            obtain ⟨cdr, hcarries⟩ := hvalue pub.topicInfo (heard_data hpub hsub payload) howner
            obtain ⟨reg, -, -, hnew, -⟩ := hsourced.callback t pub hc
            obtain ⟨hok, -⟩ := handle_value hcarries hnew hlen
            dsimp only
            cases hcalls : pub.handle env (ofBuffer payload) with
            | mk calls result =>
                rw [hcalls] at hok
                obtain rfl : result = .ok () := hok
                exact ⟨_, rfl⟩
  unfold journalled
  rw [hroute]
  exact ⟨_, rfl⟩

end Returning

section Walking

variable {τ : Type} {dispatch : Dispatch τ} {P Q : Session τ → Prop}

/-- A session none of whose callbacks throws takes all packets, and looks for the next. -/
theorem packets_return (hk : KeptBy dispatch P Q) {all : List (UInt16 × List UInt8)}
    (hreturns : ∀ (session : Session τ) (p : Packet), P session →
      session.dispatched ++ [(p.topicId, p.payload)] <+: all →
      ∃ tables, dispatch p.topicId (ofBuffer p.payload) session.tables = .ok tables)
    {ps : List Packet} (hlen : ∀ p ∈ ps, p.payload.length < readerCapacity)
    {session : Session τ} (hP : P session)
    (hall : session.dispatched ++ ps.filterMap Packet.delivered <+: all) :
    ∃ session', (sessionReader dispatch).Eats (session, readAsyncHead) (ps.flatMap Packet.bytes)
      (session', readAsyncHead) := by
  induction ps generalizing session with
  | nil => exact ⟨session, Demand.Eats.refl _⟩
  | cons p ps ih =>
      have hp := packet_eats dispatch session p (hlen p List.mem_cons_self)
      have hps : ∀ q ∈ ps, q.payload.length < readerCapacity := fun q hq =>
        hlen q (List.mem_cons_of_mem p hq)
      rw [List.flatMap_cons]
      by_cases hok : p.accepted = true
      · have hone : p.delivered = some (p.topicId, p.payload) := if_pos hok
        rw [List.filterMap_cons_some hone, ← List.singleton_append, ← List.append_assoc] at hall
        obtain ⟨tables, hd⟩ := hreturns session p hP ((List.prefix_append _ _).trans hall)
        rw [routeBody_ok hok hd] at hp
        obtain ⟨session', heats⟩ := ih hps (hk.returns session p tables hP hok hd) hall
        exact ⟨session', hp.trans heats⟩
      · have hnone : p.delivered = none := if_neg hok
        rw [List.filterMap_cons_none hnone] at hall
        rw [routeBody_rejected hok] at hp
        obtain ⟨session', heats⟩ := ih hps hP hall
        exact ⟨session', hp.trans heats⟩

/-- A session that can take the whole stream has not ended on the way. -/
theorem goes_on {s : Session τ × Next Handler} {session session' : Session τ} {next : Next Handler}
    {used rest stream : List UInt8} (heats : (sessionReader dispatch).Eats s used (session, next))
    (hwalk : (sessionReader dispatch).Eats s stream (session', readAsyncHead))
    (hst : used ++ rest = stream) (f : Failure) : next ≠ .escape f := by
  rintro rfl
  have hlevel : (session, Next.escape f) = (session', readAsyncHead) := by
    rcases heats.comparable hwalk (hst.trans (List.append_nil stream).symm) with
      ⟨more, -, hmore⟩ | ⟨more, hused, hmore⟩
    · rcases hmore.cases_head with ⟨-, hsame⟩ | ⟨chunk, _, -, hn, -⟩
      · exact hsame.symm
      · exact absurd hn (by simp)
    · rw [hused, List.append_assoc] at hst
      obtain ⟨rfl, -⟩ := List.append_eq_nil_iff.mp (List.append_right_eq_self.mp hst)
      exact hmore.of_nil
  exact absurd (congrArg Prod.snd hlevel) (by simp [readAsyncHead])

end Walking

/-! ## The device and the node -/

section Understanding

variable {env : RosEnv} {ps : List Packet} {cdrs : List (List UInt8)} {w w' : NodeWorld}

/-- What the registry delivers at any time is one of the values. -/
theorem Understood.carries (h : Understood env ps cdrs) {done : List (UInt16 × List UInt8)}
    (hdone : done <+: ps.filterMap Packet.delivered) {item : TopicInfo × List UInt8}
    (hitem : item ∈ (publishersOf done).delivered) : ∃ cdr, Carries env item cdr := by
  have hmono := Registry.delivered_mono Registry.empty (hdone.filterMap heard)
  obtain ⟨i, hi, rfl⟩ := List.getElem_of_mem (hmono.subset hitem)
  have hi' : i < cdrs.length := h.values.length_eq ▸ hi
  exact ⟨cdrs[i], h.values.get hi hi'⟩

/-- The session of an understood device takes all its packets. -/
theorem Understood.walk (h : Understood env ps cdrs) :
    ∃ session', (sessionReader (journalled env)).Eats
      ({ tables := .new, dispatched := [] }, readAsyncHead) (ps.flatMap Packet.bytes)
      (session', readAsyncHead) := by
  have hfresh : Enrolled env { tables := .new, dispatched := [] } :=
    ⟨sourced_fresh, fun _ => listed_fresh⟩
  refine packets_return (enrolled_kept env) ?_ h.short hfresh (List.prefix_refl _)
  intro session p hP hall
  have hmem : (p.topicId, p.payload) ∈ ps.filterMap Packet.delivered :=
    hall.subset (List.mem_append_right _ (List.mem_singleton.mpr rfl))
  have hbefore : ∀ d ∈ session.dispatched, ¬Usurps d := fun d hd =>
    h.own d (hall.subset (List.mem_append_left _ hd))
  refine journalled_returns hP.1 (hP.2 hbefore) (h.welcome _ hmem) p.short ?_
  intro info hheard howner
  -- the registry delivers it, so it is one of the values
  have hitem : (info, p.payload)
      ∈ (publishersOf (session.dispatched ++ [(p.topicId, p.payload)])).delivered := by
    rw [publishersOf_snoc, hheard]
    show _ ∈ ((publishersOf session.dispatched).hear (.send p.topicId p.payload)).delivered
    rw [Registry.hear_send_some howner]
    exact List.mem_append_right _ (List.mem_singleton.mpr rfl)
  exact h.carries hall hitem

/-- Wherever it is in what has arrived of them, it has not ended. -/
theorem Understood.going (h : Understood env ps cdrs) {used rest received : List UInt8}
    {session : Session Journal} {f : Failure} (hreceived : received <+: ps.flatMap Packet.bytes)
    (hst : received = used ++ rest) :
    ¬(sessionReader (journalled env)).Eats ({ tables := .new, dispatched := [] }, readAsyncHead) used
      (session, .escape f) := by
  intro heats
  obtain ⟨session', hwalk⟩ := h.walk
  obtain ⟨more, hmore⟩ := hreceived
  rw [hst, List.append_assoc] at hmore
  exact goes_on heats hwalk hmore f rfl

/-- Nothing the port and the timer do ends the node. -/
theorem Understood.step (h : Understood env ps cdrs) {es : List NodeEvent} {e : NodeEvent}
    (hx : Lts.exec (NodeWorld.step env) .start es = some w)
    (he : ∀ topicId deserialized, e ≠ .message topicId deserialized)
    (hs : w.step env e = some w') (hreceived : w'.received <+: ps.flatMap Packet.bytes) :
    w'.escaped = none := by
  cases hend : w'.escaped with
  | none => rfl
  | some f =>
      obtain ⟨used, rest, hst, heats⟩ := step_ends hx he hs hend
      exact absurd heats (h.going hreceived hst)

/-- Nor does anything it does by itself. -/
theorem Understood.ownStep (h : Understood env ps cdrs) {es : List NodeEvent} {e : NodeEvent}
    (hx : Lts.exec (NodeWorld.step env) .start es = some w)
    (hreceived : w.received <+: ps.flatMap Packet.bytes) (hs : w.ownStep env e = some w') :
    w'.escaped = none := by
  obtain ⟨hstep, honward, -⟩ := NodeWorld.ownStep_spec (NodeWorld.awake_reachable hx) hs
  refine h.step hx ?_ hstep (honward.alone.received ▸ hreceived)
  rintro topicId deserialized rfl
  exact absurd hs (by simp [NodeWorld.ownStep])

/-- What the calls of a publisher for values publish. -/
theorem published_values {handled : List Handled}
    (hone : ∀ h ∈ handled, ∀ cdr, Carries env h.item cdr →
      h.calls.filterMap RosCall.published = [cdr])
    (hvalues : List.Forall₂ (fun h cdr => Carries env (Handled.item h) cdr) handled cdrs) :
    (handled.flatMap Handled.calls).filterMap RosCall.published = cdrs := by
  induction hvalues with
  | nil => rfl
  | @cons h cdr handled cdrs hcarries _ ih =>
      rw [List.flatMap_cons, List.filterMap_append, hone h List.mem_cons_self cdr hcarries,
        ih fun x hx => hone x (List.mem_cons_of_mem h hx)]
      rfl

/-- A node that has dispatched all good packets has published all values. -/
theorem Understood.published (h : Understood env ps cdrs) {es : List NodeEvent}
    (hx : Lts.exec (NodeWorld.step env) .start es = some w) (hesc : w.escaped = none)
    (hall : w.session.dispatched = ps.filterMap Packet.delivered) :
    w.session.tables.routing.rosCalls.filterMap RosCall.published = cdrs := by
  obtain ⟨done, hdone, -, hlisted⟩ := listed_reachable hx (by rw [hall]; exact h.own)
  obtain rfl := hdone hesc
  obtain ⟨r, s, hsim⟩ := simulates_reachable hx
  have hsourced := sourced_node hsim
  have hvalues := h.values
  rw [← hall, ← hlisted.delivered, List.forall₂_map_left_iff] at hvalues
  rw [hsourced.calls]
  refine published_values ?_ hvalues
  intro x hx cdr hcarries
  obtain ⟨_, j, _, pub, -, -, -, hnew, hj, hcalls⟩ := hsourced.handled x hx
  -- its payload came in a packet
  have hmem := List.mem_of_getElem? hj
  rw [hall] at hmem
  obtain ⟨p, -, hp⟩ := List.mem_filterMap.mp hmem
  have hlen : x.payload.length < 2 ^ 16 := by
    unfold Packet.delivered at hp
    split at hp
    · obtain ⟨-, hpayload⟩ := Prod.mk.inj (Option.some.inj hp)
      rw [← hpayload]
      exact p.short
    · exact absurd hp (by simp)
  rw [hcalls]
  exact (handle_value hcarries hnew hlen).2

/-- **Left alone, a node that goes on comes to publish all values.** -/
theorem Understood.settles (h : Understood env ps cdrs) {es : List NodeEvent}
    (hx : Lts.exec (NodeWorld.step env) .start es = some w)
    (hreceived : w.received = ps.flatMap Packet.bytes) (hesc : w.escaped = none)
    (hwell : ∀ x ∈ w.ran ++ w.ready, x.outcome ≠ some .failed) :
    Lts.Inevitably (NodeWorld.ownStep env)
      (fun w' => w'.escaped = none
        ∧ w'.session.tables.routing.rosCalls.filterMap RosCall.published = cdrs) w := by
  -- what the node does by itself keeps it going
  have hgoing := (settles_reachable hx).keep
    (I := fun u => u.escaped = none ∧ u.received = ps.flatMap Packet.bytes
      ∧ ∃ es, Lts.exec (NodeWorld.step env) .start es = some u) ?_ ⟨hesc, hreceived, es, hx⟩
  · refine hgoing.mono ?_
    rintro w' ⟨⟨⟨es', hx'⟩, halone, hrest⟩, hesc', hreceived', -⟩
    have hall := dispatched_rested hx' h.short hreceived' hesc' (halone.reads_well hwell) (hrest hesc')
    exact ⟨hesc', h.published hx' hesc' hall⟩
  · rintro u e u' ⟨-, hu, es', hx'⟩ hs
    obtain ⟨hstep, honward, -⟩ := NodeWorld.ownStep_spec (NodeWorld.awake_reachable hx') hs
    refine ⟨h.ownStep hx' (by rw [hu]) hs, honward.alone.received.trans hu, es' ++ [e], ?_⟩
    exact Lts.exec_snoc hx' hstep

end Understanding

/-! ## A device that registers a topic and sends a value -/

/-- What the first packet of `valueProgram` registers. -/
def valueInfo : TopicInfo :=
  { topicId := 125, topicName := [0x74], messageType := [0x70, 0x2F, 0x42], md5sum := [0x6D]
    bufferSize := 0 }

theorem valueInfo_registered : IsRegistration (registerPacket 125 187).payload valueInfo := ⟨_, rfl⟩

theorem valueInfo_publisher : ∃ pub, SerialPublisher.new (dataEnv .boolean 1) valueInfo = .ok pub
    ∧ pub.streamDeserialized = ⟨some (dataType .boolean 1), true⟩ := ⟨_, rfl, rfl⟩

theorem valuePackets_delivered : (publishersOf valuePackets).delivered = [(valueInfo, [1])] := by rfl

/-- One `true`, as CDR. -/
theorem valueProgram_understood : Understood (dataEnv .boolean 1) valueProgram [[0, 1, 0, 0, 1]] where
  short := by decide
  own := by
    rw [valueProgram_delivered]
    exact valuePackets_own
  welcome := by
    rw [valueProgram_delivered]
    intro d hd
    obtain ⟨pub, hnew, -⟩ := valueInfo_publisher
    obtain ⟨s, hget⟩ := valueInfo_registered
    rcases List.mem_cons.mp hd with rfl | hd
    · exact ⟨fun _ => ⟨true, valueInfo, s, hget, fun _ => ⟨pub, hnew⟩⟩,
        fun hid => absurd hid (by decide)⟩
    · obtain rfl := List.mem_singleton.mp hd
      exact ⟨fun hid => absurd hid (by decide), fun hid => absurd hid (by decide)⟩
  values := by
    rw [valueProgram_delivered, valuePackets_delivered]
    obtain ⟨pub, hnew, hstream⟩ := valueInfo_publisher
    refine List.Forall₂.cons ?_ List.Forall₂.nil
    exact ⟨pub, dataType .boolean 1, [[.raw [1]]], [1], [1], [], hnew, hstream, rfl,
      Echo.scalar rfl Echo.nil, rfl, rfl, rfl⟩

/-! ## Any device that is understood -/

/--
**A device that is understood does not end the node.** While its packets come in, whatever
the port does and whatever fails, nothing escapes but from the conversion of a message.
-/
theorem device_harmless (env : RosEnv) (ps : List Packet) (cdrs : List (List UInt8))
    (hdevice : Understood env ps cdrs) (es : List NodeEvent) (w : NodeWorld)
    (hx : Lts.exec (NodeWorld.step env) .start es = some w)
    (hreceived : w.received <+: ps.flatMap Packet.bytes) :
    w.escaped = none ∨ ∃ past topicId deserialized sub f,
      es = past ++ [.message topicId deserialized]
        ∧ w.session.tables.routing.subscriber topicId = some sub
        ∧ (sub.streamDeserialized.subscribe deserialized).2 = .error f := by
  cases hend : w.escaped with
  | none => exact Or.inl rfl
  | some f =>
      rcases ended_last hx hend with ⟨past, topicId, deserialized, sub, hes, hsub, hconv⟩ |
        ⟨used, rest, hst, heats⟩
      · exact Or.inr ⟨past, topicId, deserialized, sub, f, hes, hsub, hconv⟩
      · exact absurd heats (hdevice.going hreceived hst)

/-- Of the value only four bytes have arrived. -/
theorem device_harmless_value :
    ∃ w, Lts.exec (NodeWorld.step (dataEnv .boolean 1)) .start
        [.port (.arrive ((valueProgram.flatMap Packet.bytes).take 35)), .port (.receive 0 35),
          .tick []] = some w
      ∧ w.session.dispatched.length = 1 ∧ w.escaped = none := by
  have hrun : (Lts.exec (NodeWorld.step (dataEnv .boolean 1)) .start
        [.port (.arrive ((valueProgram.flatMap Packet.bytes).take 35)), .port (.receive 0 35),
          .tick []]).map (fun w => (w.received, w.session.dispatched.length))
        = some ((valueProgram.flatMap Packet.bytes).take 35, 1) := by
    decide +kernel
  obtain ⟨w, hx, hends⟩ := Option.map_eq_some_iff.mp hrun
  obtain ⟨hreceived, hone⟩ := Prod.mk.inj hends
  refine ⟨w, hx, hone, ?_⟩
  rcases device_harmless _ valueProgram [[0, 1, 0, 0, 1]] valueProgram_understood _ w hx
    (by rw [hreceived]; exact List.take_prefix _ _) with hgoes | ⟨past, _, _, _, _, hes, -⟩
  · exact hgoes
  · exact absurd (congrArg List.getLast? hes) (by simp)

/--
**ROS gets the values, and nothing else.** When all that an understood device sends has
arrived, however it was cut up, and no read has failed, the node left alone does not end and
comes to have published what rmw makes of each value, in the order of the device.
-/
theorem values_published (env : RosEnv) (ps : List Packet) (cdrs : List (List UInt8))
    (hdevice : Understood env ps cdrs) (es : List NodeEvent) (w : NodeWorld)
    (hx : Lts.exec (NodeWorld.step env) .start es = some w)
    (hreceived : w.received = ps.flatMap Packet.bytes) (hesc : w.escaped = none)
    (hwell : ∀ x ∈ w.ran ++ w.ready, x.outcome ≠ some .failed) :
    Lts.Inevitably (NodeWorld.ownStep env)
      (fun w' => w'.escaped = none
        ∧ w'.session.tables.routing.rosCalls.filterMap RosCall.published = cdrs) w :=
  hdevice.settles hx hreceived hesc hwell

/-- The node has seen nothing of the value yet, and publishes it in the end. -/
theorem values_published_value :
    ∃ w, Lts.exec (NodeWorld.step (dataEnv .boolean 1)) .start
        [.port (.arrive (valueProgram.flatMap Packet.bytes))] = some w
      ∧ w.session.dispatched = []
      ∧ Lts.Inevitably (NodeWorld.ownStep (dataEnv .boolean 1))
        (fun w' => w'.escaped = none
          ∧ w'.session.tables.routing.rosCalls.filterMap RosCall.published = [[0, 1, 0, 0, 1]]) w := by
  have hrun : (Lts.exec (NodeWorld.step (dataEnv .boolean 1)) .start
        [.port (.arrive (valueProgram.flatMap Packet.bytes))]).map
      (fun w => (w.received, w.session.dispatched, w.escaped, w.ran ++ w.ready))
        = some (valueProgram.flatMap Packet.bytes, [], none, []) := by
    decide +kernel
  obtain ⟨w, hx, hends⟩ := Option.map_eq_some_iff.mp hrun
  obtain ⟨hreceived, hrest⟩ := Prod.mk.inj hends
  obtain ⟨hnone, hrest⟩ := Prod.mk.inj hrest
  obtain ⟨hesc, hquiet⟩ := Prod.mk.inj hrest
  exact ⟨w, hx, hnone, values_published _ valueProgram [[0, 1, 0, 0, 1]] valueProgram_understood _ w
    hx hreceived hesc (by rw [hquiet]; simp)⟩

end RosserialServer
