import RosserialServer.Lib.Registry
import RosserialServer.Proof.Provenance

/-!
# A node is a registry

Behind the tables of the session is a simple thing: devices register topics under ids and
send data to ids, and data go to the topic registered last under the id. `handled_registry`
says that this is all a node makes of the packets it dispatches, whatever else happens to
it. The one condition is that no publisher is registered under one of the ids that the
session uses itself, which nothing checks.
-/

namespace RosserialServer

open RosStream

/-! ## The registry that packets describe -/

/-- A registration, as an act. -/
def bindingOf (body : List UInt8) : Option (RegistryAct UInt16 TopicInfo (List UInt8)) :=
  match getTopicInfo {} (ofBuffer body) with
  | .ok (true, info, _) => some (.bind info.topicId info)
  | .ok (false, _, _) => none
  | .error _ => none

/-- What a packet is to the publishers. -/
def heard (d : UInt16 × List UInt8) : Option (RegistryAct UInt16 TopicInfo (List UInt8)) :=
  if d.1 = TopicInfo.idPublisher then bindingOf d.2
  else if d.1 = TopicInfo.idSubscriber then none
  else some (.send d.1 d.2)

/-- What a packet is to the subscriptions. -/
def subscribed (d : UInt16 × List UInt8) : Option (RegistryAct UInt16 TopicInfo (List UInt8)) :=
  if d.1 = TopicInfo.idSubscriber then bindingOf d.2 else none

def publishersOf (packets : List (UInt16 × List UInt8)) : Registry UInt16 TopicInfo (List UInt8) :=
  Registry.empty.hearAll (packets.filterMap heard)

def subscribersOf (packets : List (UInt16 × List UInt8)) : Registry UInt16 TopicInfo (List UInt8) :=
  Registry.empty.hearAll (packets.filterMap subscribed)

/-- What reached ROS, and on which topic. -/
def Handled.item (h : Handled) : TopicInfo × List UInt8 := (h.topicInfo, h.payload)

/-- A publisher is registered under one of the session's own ids. -/
def Usurps (d : UInt16 × List UInt8) : Prop :=
  d.1 = TopicInfo.idPublisher ∧ ∃ info, IsRegistration d.2 info
    ∧ (info.topicId = TopicInfo.idPublisher ∨ info.topicId = TopicInfo.idSubscriber)

theorem bindingOf_some {body : List UInt8} {info : TopicInfo} (h : IsRegistration body info) :
    bindingOf body = some (.bind info.topicId info) := by
  obtain ⟨s, hget⟩ := h
  unfold bindingOf
  rw [hget]

theorem bindingOf_none {body : List UInt8} {info : TopicInfo} {s : RosStream}
    (h : getTopicInfo {} (ofBuffer body) = .ok (false, info, s)) : bindingOf body = none := by
  unfold bindingOf
  rw [h]

theorem ids_differ : TopicInfo.idSubscriber ≠ TopicInfo.idPublisher := by decide

theorem heard_publisher (body : List UInt8) : heard (TopicInfo.idPublisher, body) = bindingOf body :=
  if_pos rfl

theorem heard_subscriber (body : List UInt8) : heard (TopicInfo.idSubscriber, body) = none := by
  unfold heard
  rw [if_neg ids_differ, if_pos rfl]

theorem heard_data {t : UInt16} (hpub : t ≠ TopicInfo.idPublisher) (hsub : t ≠ TopicInfo.idSubscriber)
    (body : List UInt8) : heard (t, body) = some (.send t body) := by
  unfold heard
  rw [if_neg hpub, if_neg hsub]

theorem subscribed_subscriber (body : List UInt8) :
    subscribed (TopicInfo.idSubscriber, body) = bindingOf body := if_pos rfl

theorem subscribed_other {t : UInt16} (h : t ≠ TopicInfo.idSubscriber) (body : List UInt8) :
    subscribed (t, body) = none := if_neg h

theorem publishersOf_snoc (packets : List (UInt16 × List UInt8)) (d : UInt16 × List UInt8) :
    publishersOf (packets ++ [d]) = (publishersOf packets).hearAll (heard d).toList :=
  Registry.hearAll_snoc _ heard packets d

theorem subscribersOf_snoc (packets : List (UInt16 × List UInt8)) (d : UInt16 × List UInt8) :
    subscribersOf (packets ++ [d]) = (subscribersOf packets).hearAll (subscribed d).toList :=
  Registry.hearAll_snoc _ subscribed packets d

/-! ## The tables hold what the registry says -/

/-- The topic a callback publishes on. -/
def Callback.topicInfo : Callback → Option TopicInfo
  | .handle pub => some pub.topicInfo
  | .createPublisher => none
  | .createSubscriber => none

/-- The tables and the journal are those of the registry of some packets. -/
structure Listed (packets : List (UInt16 × List UInt8)) (journal : Journal) : Prop where
  publisher : journal.routing.callback TopicInfo.idPublisher = some .createPublisher
  subscriber : journal.routing.callback TopicInfo.idSubscriber = some .createSubscriber
  owner : ∀ t, t ≠ TopicInfo.idPublisher → t ≠ TopicInfo.idSubscriber →
    (journal.routing.callback t).bind Callback.topicInfo = (publishersOf packets).owner t
  listens : ∀ t, (journal.routing.subscriber t).map SerialSubscriber.topicInfo
    = (subscribersOf packets).owner t
  delivered : journal.handled.map Handled.item = (publishersOf packets).delivered

theorem listed_fresh : Listed [] .new where
  publisher := reserved_fresh.1
  subscriber := reserved_fresh.2
  owner := by
    intro t hpub hsub
    exact congrArg (Option.bind · Callback.topicInfo) (fresh_callback hpub hsub)
  listens := fun _ => rfl
  delivered := rfl

section Hearing

variable {env : RosEnv} {packets : List (UInt16 × List UInt8)} {journal journal' : Journal}
  {t : UInt16} {payload : List UInt8}

/-- A packet that means nothing to either registry. -/
theorem Listed.unheard (h : Listed packets journal) {d : UInt16 × List UInt8}
    (hpub : (publishersOf packets).hearAll (heard d).toList = publishersOf packets)
    (hsub : subscribed d = none) : Listed (packets ++ [d]) journal := by
  have hpubs : publishersOf (packets ++ [d]) = publishersOf packets := by
    rw [publishersOf_snoc, hpub]
  have hsubs : subscribersOf (packets ++ [d]) = subscribersOf packets := by
    rw [subscribersOf_snoc, hsub]
    rfl
  refine ⟨h.publisher, h.subscriber, ?_, ?_, ?_⟩
  · rw [hpubs]
    exact h.owner
  · rw [hsubs]
    exact h.listens
  · rw [hpubs]
    exact h.delivered

theorem Listed.bind (h : Listed packets journal) {info : TopicInfo} {pub : SerialPublisher}
    (hreg : IsRegistration payload info) (hnew : SerialPublisher.new env info = .ok pub)
    (hown : ¬Usurps (TopicInfo.idPublisher, payload)) :
    Listed (packets ++ [(TopicInfo.idPublisher, payload)])
      { journal with routing := { journal.routing with
          publisher := Function.update journal.routing.publisher info.topicId (some pub)
          callback := Function.update journal.routing.callback info.topicId
            (some (.handle pub)) } } := by
  have hpubs : publishersOf (packets ++ [(TopicInfo.idPublisher, payload)])
      = (publishersOf packets).hear (.bind info.topicId info) := by
    rw [publishersOf_snoc, heard_publisher, bindingOf_some hreg]
    rfl
  have hsubs : subscribersOf (packets ++ [(TopicInfo.idPublisher, payload)])
      = subscribersOf packets := by
    rw [subscribersOf_snoc, subscribed_other ids_differ.symm]
    rfl
  -- the id it names is neither of the two
  have hpub : TopicInfo.idPublisher ≠ info.topicId := fun heq =>
    hown ⟨rfl, info, hreg, Or.inl heq.symm⟩
  have hsub : TopicInfo.idSubscriber ≠ info.topicId := fun heq =>
    hown ⟨rfl, info, hreg, Or.inr heq.symm⟩
  refine ⟨?_, ?_, ?_, ?_, ?_⟩
  · exact (Function.update_of_ne hpub _ _).trans h.publisher
  · exact (Function.update_of_ne hsub _ _).trans h.subscriber
  · intro t hp hs
    rw [hpubs]
    show (Function.update journal.routing.callback info.topicId _ t).bind _
      = Function.update (publishersOf packets).owner info.topicId _ t
    by_cases hid : t = info.topicId
    · rw [hid, Function.update_self, Function.update_self]
      exact congrArg some (publisher_topicInfo hnew)
    · rw [Function.update_of_ne hid, Function.update_of_ne hid]
      exact h.owner t hp hs
  · rw [hsubs]
    exact h.listens
  · rw [hpubs]
    exact h.delivered

theorem Listed.listen (h : Listed packets journal) {info : TopicInfo} {sub : SerialSubscriber}
    (hreg : IsRegistration payload info) (hnew : SerialSubscriber.new env info = .ok sub) :
    Listed (packets ++ [(TopicInfo.idSubscriber, payload)])
      { journal with routing := { journal.routing with
          subscriber := Function.update journal.routing.subscriber info.topicId (some sub) } } := by
  have hpubs : publishersOf (packets ++ [(TopicInfo.idSubscriber, payload)])
      = publishersOf packets := by
    rw [publishersOf_snoc, heard_subscriber]
    rfl
  have hsubs : subscribersOf (packets ++ [(TopicInfo.idSubscriber, payload)])
      = (subscribersOf packets).hear (.bind info.topicId info) := by
    rw [subscribersOf_snoc, subscribed_subscriber, bindingOf_some hreg]
    rfl
  refine ⟨h.publisher, h.subscriber, ?_, ?_, ?_⟩
  · rw [hpubs]
    exact h.owner
  · intro t
    rw [hsubs]
    show (Function.update journal.routing.subscriber info.topicId _ t).map _
      = Function.update (subscribersOf packets).owner info.topicId _ t
    by_cases hid : t = info.topicId
    · rw [hid, Function.update_self, Function.update_self]
      exact congrArg some (subscriber_topicInfo hnew)
    · rw [Function.update_of_ne hid, Function.update_of_ne hid]
      exact h.listens t
  · rw [hpubs]
    exact h.delivered

/-- A data packet goes where the registry sends it. -/
theorem Listed.send (h : Listed packets journal) {pub : SerialPublisher}
    (hc : journal.routing.callback t = some (.handle pub)) (calls rosCalls : List RosCall) :
    Listed (packets ++ [(t, payload)])
      { routing := { journal.routing with rosCalls := rosCalls }
        handled := journal.handled ++ [{ topicInfo := pub.topicInfo, payload := payload
                                         calls := calls }] } := by
  have hpub : t ≠ TopicInfo.idPublisher := by
    rintro rfl
    rw [h.publisher] at hc
    exact absurd hc (by simp)
  have hsub : t ≠ TopicInfo.idSubscriber := by
    rintro rfl
    rw [h.subscriber] at hc
    exact absurd hc (by simp)
  have howner : (publishersOf packets).owner t = some pub.topicInfo := by
    rw [← h.owner t hpub hsub, hc]
    rfl
  have hpubs : publishersOf (packets ++ [(t, payload)]) = { publishersOf packets with
      delivered := (publishersOf packets).delivered ++ [(pub.topicInfo, payload)] } := by
    rw [publishersOf_snoc, heard_data hpub hsub]
    exact Registry.hear_send_some howner payload
  have hsubs : subscribersOf (packets ++ [(t, payload)]) = subscribersOf packets := by
    rw [subscribersOf_snoc, subscribed_other hsub]
    rfl
  refine ⟨h.publisher, h.subscriber, ?_, ?_, ?_⟩
  · rw [hpubs]
    exact h.owner
  · rw [hsubs]
    exact h.listens
  · rw [hpubs, List.map_append, h.delivered]
    rfl

/-- **A packet does to the tables what it does to the registry.** -/
theorem listed_effect (h : Listed packets journal) (honly : ∀ t,
      (journal.routing.callback t = some .createPublisher → t = TopicInfo.idPublisher)
        ∧ (journal.routing.callback t = some .createSubscriber → t = TopicInfo.idSubscriber))
    (hown : ¬Usurps (t, payload)) (he : Effect env t payload journal journal') :
    Listed (packets ++ [(t, payload)]) journal' := by
  cases he with
  | unknown hc =>
      have hpub : t ≠ TopicInfo.idPublisher := by
        rintro rfl
        rw [h.publisher] at hc
        exact absurd hc (by simp)
      have hsub : t ≠ TopicInfo.idSubscriber := by
        rintro rfl
        rw [h.subscriber] at hc
        exact absurd hc (by simp)
      refine h.unheard ?_ (subscribed_other hsub payload)
      rw [heard_data hpub hsub]
      refine Registry.hear_send_none ?_ payload
      rw [← h.owner t hpub hsub, hc]
      rfl
  | refused hc hget =>
      rcases hc with hc | hc
      · obtain rfl := (honly t).1 hc
        refine h.unheard ?_ (subscribed_other ids_differ.symm payload)
        rw [heard_publisher, bindingOf_none hget]
        rfl
      · obtain rfl := (honly t).2 hc
        refine h.unheard ?_ ?_
        · rw [heard_subscriber]
          rfl
        · rw [subscribed_subscriber, bindingOf_none hget]
  | publisher hc hreg hnew =>
      obtain rfl := (honly t).1 hc
      exact h.bind hreg hnew hown
  | subscription hc hreg hnew =>
      obtain rfl := (honly t).2 hc
      exact h.listen hreg hnew
  | data hc => exact h.send hc _ _

end Hearing

/-! ## Every run -/

/-- The registry of the packets dispatched so far, unless one of them usurps an id. -/
def Enrolled (env : RosEnv) (session : Session Journal) : Prop :=
  Sourced env session
    ∧ ((∀ d ∈ session.dispatched, ¬Usurps d) → Listed session.dispatched session.tables)

/-- `done` is all of the packets, or all but a last one whose callback does not return. -/
def ToldOf (env : RosEnv) (tables : Journal) (packets done : List (UInt16 × List UInt8)) : Prop :=
  done = packets ∨ ∃ t payload f, packets = done ++ [(t, payload)]
    ∧ journalled env t (ofBuffer payload) tables = .error f

theorem ToldOf.beginning {env : RosEnv} {tables : Journal} {packets done : List (UInt16 × List UInt8)}
    (h : ToldOf env tables packets done) : done <+: packets := by
  rcases h with rfl | ⟨t, payload, f, rfl, -⟩
  · exact List.prefix_refl _
  · exact List.prefix_append _ _

/-- So it is but for the last packet, if that one did not return. -/
def NearlyEnrolled (env : RosEnv) (session : Session Journal) : Prop :=
  (∀ d ∈ session.dispatched, ¬Usurps d) →
    ∃ done, ToldOf env session.tables session.dispatched done ∧ Listed done session.tables

theorem enrolled_kept (env : RosEnv) :
    KeptBy (journalled env) (Enrolled env) (NearlyEnrolled env) where
  weaken := by
    intro session h hown
    exact ⟨session.dispatched, Or.inl rfl, h.2 hown⟩
  returns := by
    intro session p journal h hok hd
    have heffect := journalled_effect hd
    refine ⟨sourced_effect h.1 heffect, ?_⟩
    intro hown
    have hbefore := h.2 fun d hmem => hown d (List.mem_append_left _ hmem)
    have hlast := hown (p.topicId, p.payload) (List.mem_append_right _ (List.mem_singleton.mpr rfl))
    exact listed_effect hbefore (fun t => ⟨h.1.publishers t, h.1.subscribers t⟩) hlast heffect
  throws := by
    -- a dispatch that throws leaves the tables as they are
    intro session p f h _ hd hown
    exact ⟨session.dispatched, Or.inr ⟨p.topicId, p.payload, f, rfl, hd⟩,
      h.2 fun d hmem => hown d (List.mem_append_left _ hmem)⟩

theorem listed_reachable {env : RosEnv} {es : List NodeEvent} {w : NodeWorld}
    (hx : Lts.exec (NodeWorld.step env) .start es = some w)
    (hown : ∀ d ∈ w.session.dispatched, ¬Usurps d) :
    ∃ done, (w.escaped = none → done = w.session.dispatched)
      ∧ ToldOf env w.session.tables w.session.dispatched done ∧ Listed done w.session.tables := by
  obtain ⟨r, s, hsim⟩ := simulates_reachable hx
  have hfresh : Enrolled env { tables := .new, dispatched := [] } :=
    ⟨sourced_fresh, fun _ => listed_fresh⟩
  obtain ⟨hnearly, hall⟩ := node_session (enrolled_kept env) hfresh hsim
  cases hesc : w.escaped with
  | none => exact ⟨w.session.dispatched, fun _ => rfl, Or.inl rfl, (hall hesc).2 hown⟩
  | some f =>
      obtain ⟨done, htold, hlisted⟩ := hnearly hown
      exact ⟨done, fun hno => absurd hno (by simp), htold, hlisted⟩

/--
**A node is a registry of topics.** Whatever a node has been through, what it has handled
is what the registry of the packets it dispatched delivers, and the topics it listens on are
those the registry has. Only a last packet whose callback throws is left out, and the node
does not go on after one.
-/
theorem handled_registry (env : RosEnv) (es : List NodeEvent) (w : NodeWorld)
    (hx : Lts.exec (NodeWorld.step env) .start es = some w)
    (hown : ∀ d ∈ w.session.dispatched, ¬Usurps d) :
    ∃ done, (w.escaped = none → done = w.session.dispatched)
      ∧ (done = w.session.dispatched ∨ ∃ t payload f, w.session.dispatched = done ++ [(t, payload)]
        ∧ journalled env t (ofBuffer payload) w.session.tables = .error f)
      ∧ w.session.tables.handled.map Handled.item = (publishersOf done).delivered
      ∧ ∀ t, (w.session.tables.routing.subscriber t).map SerialSubscriber.topicInfo
        = (subscribersOf done).owner t := by
  obtain ⟨done, hall, htold, hlisted⟩ := listed_reachable hx hown
  exact ⟨done, hall, htold, hlisted.delivered, hlisted.listens⟩

theorem register_own : ¬Usurps (0, (registerPacket 125 187).payload) := by
  rintro ⟨-, info, ⟨s, hget⟩, hid⟩
  have htopic : (getTopicInfo {} (ofBuffer (registerPacket 125 187).payload)).toOption.map
      (fun out => out.2.1.topicId) = some 125 := by decide
  rw [hget] at htopic
  have hinfo : info.topicId = 125 := Option.some.inj htopic
  rw [hinfo] at hid
  exact absurd hid (by decide)

/-- A registration of topic 125, and one value on it. -/
def valuePackets : List (UInt16 × List UInt8) := [(0, (registerPacket 125 187).payload), (125, [1])]

theorem valuePackets_own : ∀ d ∈ valuePackets, ¬Usurps d := by
  intro d hd
  rcases List.mem_cons.mp hd with rfl | hd
  · exact register_own
  · obtain rfl := List.mem_singleton.mp hd
    exact fun husurps => absurd husurps.1 (by decide)

/-- A device registers topic 125 and sends one value on it. -/
theorem handled_registry_value :
    ∃ w, Lts.exec (NodeWorld.step (dataEnv .boolean 1)) .start
        [.port (.arrive ((registerPacket 125 187).bytes
          ++ [0xFF, 0xFE, 1, 0, 0xFE, 125, 0, 1, 0x81])), .port (.receive 0 40), .tick []] = some w
      ∧ w.session.tables.handled.length = 1
      ∧ w.session.tables.handled.map Handled.item
        = (publishersOf w.session.dispatched).delivered := by
  have hrun : (Lts.exec (NodeWorld.step (dataEnv .boolean 1)) .start
        [.port (.arrive ((registerPacket 125 187).bytes
          ++ [0xFF, 0xFE, 1, 0, 0xFE, 125, 0, 1, 0x81])), .port (.receive 0 40), .tick []]).map
      (fun w => (w.escaped, w.session.dispatched, w.session.tables.handled.length))
        = some (none, valuePackets, 1) := by
    decide +kernel
  obtain ⟨w, hx, hends⟩ := Option.map_eq_some_iff.mp hrun
  obtain ⟨hesc, hrest⟩ := Prod.mk.inj hends
  obtain ⟨hdispatched, hone⟩ := Prod.mk.inj hrest
  have hown : ∀ d ∈ w.session.dispatched, ¬Usurps d := by
    rw [hdispatched]
    exact valuePackets_own
  obtain ⟨done, hall, -, hhandled, -⟩ := handled_registry _ _ w hx hown
  rw [hall hesc] at hhandled
  exact ⟨w, hx, hone, hhandled⟩

end RosserialServer
