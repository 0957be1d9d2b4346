import RosserialServer.Proof.Containment

/-!
# The routing tables over a run

`callback_` is keyed by topic ids that arrive in the bodies of the very packets it routes.
Nothing compares such an id with the reserved ones, so the entries that lead to
`create_publisher` and `create_subscriber` stand exactly as long as no publisher
registration names them (`reserved_iff`). In such runs `publisher_` and `callback_` are
both a function of the registrations so far (`routing_latest`).
-/

namespace RosserialServer

open Outcome RosStream

/-- A packet reaches `read_body`; `env` is what the calls into ROS do then. -/
structure Arrival where
  env : RosEnv
  packet : Packet

/-- `read_body` on a validated packet, if the handler returns. -/
def arrive (session : Session Tables) (a : Arrival) : Option (Session Tables) :=
  if a.packet.accepted then
    match readBody (route a.env) session (ofBuffer (a.packet.payload ++ [a.packet.checksum]))
        a.packet.topicId with
    | (session', .read _ _) => some session'
    | (_, .escape _) => none
  else none

/-- The session when `start_read` has filled in the reserved entries. -/
def freshSession : Session Tables := { tables := .new, dispatched := [] }

namespace Arrival

/-- What the packet registers, if `get_topic_info` accepts it as a registration. -/
def registered (a : Arrival) : Option TopicInfo :=
  match getTopicInfo {} (ofBuffer a.packet.payload) with
  | .ok (true, info, _) => some info
  | _ => none

/-- A publisher registration. -/
def publisherInfo (a : Arrival) : Option TopicInfo :=
  if a.packet.topicId = TopicInfo.idPublisher then a.registered else none

/-- A publisher registration that names a reserved topic id. -/
def Hijacks (a : Arrival) : Prop :=
  ∃ info, a.publisherInfo = some info
    ∧ (info.topicId = TopicInfo.idPublisher ∨ info.topicId = TopicInfo.idSubscriber)

/-- The publisher a successful publisher registration makes, and its topic id. -/
def made (a : Arrival) : Option (UInt16 × SerialPublisher) :=
  match a.publisherInfo with
  | none => none
  | some info =>
      match SerialPublisher.new a.env info with
      | .error _ => none
      | .ok pub => some (info.topicId, pub)

/-- The publisher the packet makes for one topic id. -/
def madeFor (t : UInt16) (a : Arrival) : Option SerialPublisher :=
  match a.made with
  | none => none
  | some (topicId, pub) => if topicId = t then some pub else none

end Arrival

/-- The publisher of the most recent successful publisher registration for a topic id. -/
def latest (past : List Arrival) (t : UInt16) : Option SerialPublisher :=
  past.reverse.findSome? (Arrival.madeFor t)

theorem latest_snoc (past : List Arrival) (a : Arrival) (t : UInt16) :
    latest (past ++ [a]) t = (a.madeFor t).or (latest past t) := by
  unfold latest
  rw [List.reverse_append, List.findSome?_append]
  congr 1
  cases h : a.madeFor t <;> simp [h]

/-- The reserved entries lead where they should. -/
def Reserved (session : Session Tables) : Prop :=
  session.tables.callback TopicInfo.idPublisher = some .createPublisher
    ∧ session.tables.callback TopicInfo.idSubscriber = some .createSubscriber

/-! ## One packet -/

theorem arrive_iff {session session' : Session Tables} {a : Arrival} :
    arrive session a = some session' ↔ a.packet.accepted = true
      ∧ ∃ tables, route a.env a.packet.topicId (ofBuffer a.packet.payload) session.tables = .ok tables
        ∧ session' = ⟨tables, session.dispatched ++ [(a.packet.topicId, a.packet.payload)]⟩ := by
  have hshort := a.packet.short
  unfold arrive
  rw [readBody_spec _ _ _ (by omega)]
  cases haccepted : a.packet.accepted with
  | false => simp
  | true =>
      unfold Packet.accepted at haccepted
      rw [if_pos rfl]
      unfold routeBody
      rw [if_pos haccepted]
      cases route a.env a.packet.topicId (ofBuffer a.packet.payload) session.tables with
      | error f => simp
      | ok tables => simp [readAsyncHead, eq_comm]

/-- What `create_publisher` does to the tables. -/
theorem createPublisher_cases {env : RosEnv} {p : Packet} {tables tables' : Tables}
    (h : createPublisher env tables (ofBuffer p.payload) = .ok tables') :
    ((Arrival.mk env p).registered = none ∧ tables' = tables)
      ∨ ∃ info pub, (Arrival.mk env p).registered = some info
        ∧ SerialPublisher.new env info = .ok pub
        ∧ tables' = { tables with
            publisher := Function.update tables.publisher info.topicId (some pub)
            callback := Function.update tables.callback info.topicId (some (.handle pub)) } := by
  unfold createPublisher at h
  unfold Arrival.registered
  dsimp only
  cases hget : getTopicInfo {} (ofBuffer p.payload) with
  | error e =>
      rw [hget] at h
      exact absurd h (by simp)
  | ok r =>
      obtain ⟨ok, info, s⟩ := r
      rw [hget] at h
      cases ok with
      | false => exact Or.inl ⟨rfl, (Except.ok.inj h).symm⟩
      | true =>
          dsimp only at h
          cases hnew : SerialPublisher.new env info with
          | error f =>
              rw [hnew] at h
              exact absurd h (by simp)
          | ok pub =>
              rw [hnew] at h
              exact Or.inr ⟨info, pub, rfl, hnew, (Except.ok.inj h).symm⟩

/-- `create_subscriber` leaves the publishers and the callbacks alone. -/
theorem createSubscriber_frame {env : RosEnv} {msg : RosStream} {tables tables' : Tables}
    (h : createSubscriber env tables msg = .ok tables') :
    tables'.callback = tables.callback ∧ tables'.publisher = tables.publisher := by
  unfold createSubscriber at h
  cases hget : getTopicInfo {} msg with
  | error e =>
      rw [hget] at h
      exact absurd h (by simp)
  | ok r =>
      obtain ⟨ok, info, s⟩ := r
      rw [hget] at h
      cases ok with
      | false =>
          obtain rfl := Except.ok.inj h
          exact ⟨rfl, rfl⟩
      | true =>
          dsimp only at h
          cases hnew : SerialSubscriber.new env info with
          | error f =>
              rw [hnew] at h
              exact absurd h (by simp)
          | ok sub =>
              rw [hnew] at h
              obtain rfl := Except.ok.inj h
              exact ⟨rfl, rfl⟩

/-- The tables after a data packet, by what its publisher did. -/
def published (tables : Tables) : List RosCall × Except Failure Unit → Except Failure Tables
  | (_, .error f) => .error f
  | (calls, .ok ()) => .ok { tables with rosCalls := tables.rosCalls ++ calls }

theorem route_handle {env : RosEnv} {t : UInt16} {msg : RosStream} {tables : Tables}
    {pub : SerialPublisher} (h : tables.callback t = some (.handle pub)) :
    route env t msg tables = published tables (pub.handle env msg) := by
  unfold route
  rw [h]
  dsimp only
  generalize pub.handle env msg = r
  obtain ⟨calls, r⟩ := r
  cases r with
  | error f => rfl
  | ok u => rfl

theorem published_frame {tables tables' : Tables} {r : List RosCall × Except Failure Unit}
    (h : published tables r = .ok tables') :
    tables'.callback = tables.callback ∧ tables'.publisher = tables.publisher
      ∧ tables'.subscriber = tables.subscriber := by
  obtain ⟨calls, r⟩ := r
  cases r with
  | error f => exact absurd h (by simp [published])
  | ok u =>
      obtain rfl := Except.ok.inj h
      exact ⟨rfl, rfl, rfl⟩

/--
**What one packet does to the tables**: a publisher registration enters its publisher in
both, and nothing else changes them.
-/
theorem arrive_cases {session session' : Session Tables} {a : Arrival}
    (h : arrive session a = some session') :
    (session.tables.callback a.packet.topicId = some .createPublisher
        ∧ ∃ info pub, a.registered = some info ∧ SerialPublisher.new a.env info = .ok pub
          ∧ session'.tables.publisher
            = Function.update session.tables.publisher info.topicId (some pub)
          ∧ session'.tables.callback
            = Function.update session.tables.callback info.topicId (some (.handle pub)))
      ∨ ((session.tables.callback a.packet.topicId = some .createPublisher → a.registered = none)
        ∧ session'.tables.publisher = session.tables.publisher
        ∧ session'.tables.callback = session.tables.callback) := by
  obtain ⟨-, tables, hroute, rfl⟩ := arrive_iff.mp h
  cases hcallback : session.tables.callback a.packet.topicId with
  | none =>
      unfold route at hroute
      rw [hcallback] at hroute
      obtain rfl := Except.ok.inj hroute
      exact Or.inr ⟨by simp, rfl, rfl⟩
  | some callback =>
      cases callback with
      | createPublisher =>
          unfold route at hroute
          rw [hcallback] at hroute
          rcases createPublisher_cases hroute with ⟨hnone, rfl⟩ | ⟨info, pub, hsome, hnew, rfl⟩
          · exact Or.inr ⟨fun _ => hnone, rfl, rfl⟩
          · exact Or.inl ⟨rfl, info, pub, hsome, hnew, rfl, rfl⟩
      | createSubscriber =>
          unfold route at hroute
          rw [hcallback] at hroute
          obtain ⟨hcb, hpub⟩ := createSubscriber_frame hroute
          exact Or.inr ⟨by simp, hpub, hcb⟩
      | handle pub =>
          rw [route_handle hcallback] at hroute
          obtain ⟨hcb, hpub, -⟩ := published_frame hroute
          exact Or.inr ⟨by simp, hpub, hcb⟩

/-! ## The reserved entries -/

/-- `create_publisher` is reached under its own topic id only. -/
def OnlyPublisher (session : Session Tables) : Prop :=
  ∀ t, session.tables.callback t = some .createPublisher → t = TopicInfo.idPublisher

theorem fresh_callback {t : UInt16} (hpub : t ≠ TopicInfo.idPublisher)
    (hsub : t ≠ TopicInfo.idSubscriber) : freshSession.tables.callback t = none := by
  have htables : freshSession.tables.callback t
      = Function.update (Function.update (fun _ => none) TopicInfo.idPublisher
        (some .createPublisher)) TopicInfo.idSubscriber (some Callback.createSubscriber) t := rfl
  rw [htables, Function.update_of_ne hsub, Function.update_of_ne hpub]

theorem reserved_fresh : Reserved freshSession := ⟨rfl, rfl⟩

theorem onlyPublisher_fresh : OnlyPublisher freshSession := by
  intro t ht
  by_contra hne
  by_cases hsub : t = TopicInfo.idSubscriber
  · rw [hsub, reserved_fresh.2] at ht
    exact absurd ht (by simp)
  · rw [fresh_callback hne hsub] at ht
    exact absurd ht (by simp)

theorem onlyPublisher_step {session session' : Session Tables} {a : Arrival}
    (honly : OnlyPublisher session) (h : arrive session a = some session') :
    OnlyPublisher session' := by
  intro t ht
  rcases arrive_cases h with ⟨-, info, pub, -, -, -, hcb⟩ | ⟨-, -, hcb⟩
  · rw [hcb] at ht
    by_cases hid : t = info.topicId
    · rw [hid, Function.update_self] at ht
      exact absurd ht (by simp)
    · rw [Function.update_of_ne hid] at ht
      exact honly t ht
  · rw [hcb] at ht
    exact honly t ht

/-- While the reserved entries stand, a registration is what comes in under topic id 0. -/
theorem publisherInfo_eq {session : Session Tables} {a : Arrival} (hres : Reserved session)
    (honly : OnlyPublisher session) :
    (session.tables.callback a.packet.topicId = some .createPublisher
        → a.publisherInfo = a.registered)
      ∧ (session.tables.callback a.packet.topicId ≠ some .createPublisher
        → a.publisherInfo = none) := by
  constructor
  · intro hcb
    exact if_pos (honly _ hcb)
  · intro hno
    refine if_neg fun hid => hno ?_
    rw [hid]
    exact hres.1

/-- The step in terms of the registration the packet carries. -/
theorem registration_step {session session' : Session Tables} {a : Arrival}
    (hres : Reserved session) (honly : OnlyPublisher session)
    (h : arrive session a = some session') :
    (∃ info pub, a.publisherInfo = some info ∧ SerialPublisher.new a.env info = .ok pub
        ∧ session'.tables.publisher
          = Function.update session.tables.publisher info.topicId (some pub)
        ∧ session'.tables.callback
          = Function.update session.tables.callback info.topicId (some (.handle pub)))
      ∨ (a.publisherInfo = none ∧ session'.tables.publisher = session.tables.publisher
        ∧ session'.tables.callback = session.tables.callback) := by
  obtain ⟨hyes, hno⟩ := publisherInfo_eq (a := a) hres honly
  rcases arrive_cases h with ⟨hcb, hmade⟩ | ⟨hnone, hframe⟩
  · rw [hyes hcb]
    exact Or.inl hmade
  · refine Or.inr ⟨?_, hframe⟩
    by_cases hcb : session.tables.callback a.packet.topicId = some .createPublisher
    · rw [hyes hcb, hnone hcb]
    · exact hno hcb

theorem reserved_step_iff {session session' : Session Tables} {a : Arrival}
    (hres : Reserved session) (honly : OnlyPublisher session)
    (h : arrive session a = some session') : Reserved session' ↔ ¬a.Hijacks := by
  unfold Arrival.Hijacks
  rcases registration_step hres honly h with ⟨info, pub, hinfo, -, -, hcb⟩ | ⟨hinfo, -, hcb⟩
  · rw [hinfo]
    unfold Reserved
    rw [hcb]
    constructor
    · rintro ⟨hzero, hone⟩ ⟨info', hsome, hid⟩
      obtain rfl := Option.some.inj hsome
      rcases hid with hid | hid
      · rw [← hid, Function.update_self] at hzero
        exact absurd hzero (by simp)
      · rw [← hid, Function.update_self] at hone
        exact absurd hone (by simp)
    · intro hno
      have hzero : TopicInfo.idPublisher ≠ info.topicId :=
        fun hc => hno ⟨info, rfl, Or.inl hc.symm⟩
      have hone : TopicInfo.idSubscriber ≠ info.topicId :=
        fun hc => hno ⟨info, rfl, Or.inr hc.symm⟩
      rw [Function.update_of_ne hzero, Function.update_of_ne hone]
      exact hres
  · rw [hinfo]
    refine iff_of_true ?_ (by simp)
    unfold Reserved
    rw [hcb]
    exact hres

/--
**When registration cannot be hijacked**: exactly while no publisher registration names one
of the two reserved topic ids.
-/
theorem reserved_iff {es : List Arrival} {session : Session Tables}
    (h : Lts.exec arrive freshSession es = some session) :
    Lts.Visits arrive Reserved freshSession es ↔ ∀ a ∈ es, ¬a.Hijacks := by
  rw [← Lts.takes_iff_forall h]
  exact Lts.visits_iff_takes (K := fun _ => True) (fun _ _ _ hI hstep => onlyPublisher_step hI hstep)
    (fun _ _ _ _ _ => trivial) (fun _ _ _ hI hP _ hstep => reserved_step_iff hP hI hstep)
    onlyPublisher_fresh reserved_fresh h trivial

/-! ## The latest registration -/

/-- The tables are what the packets so far make of them. -/
structure Follows (past : List Arrival) (session : Session Tables) : Prop where
  reserved : Reserved session
  only : OnlyPublisher session
  publisher : ∀ t, session.tables.publisher t = latest past t
  callback : ∀ t, t ≠ TopicInfo.idPublisher → t ≠ TopicInfo.idSubscriber →
    session.tables.callback t = (session.tables.publisher t).map .handle

theorem follows_fresh : Follows [] freshSession where
  reserved := reserved_fresh
  only := onlyPublisher_fresh
  publisher := fun _ => rfl
  callback := by
    intro t hpub hsub
    rw [fresh_callback hpub hsub]
    rfl

theorem follows_step {past : List Arrival} {session session' : Session Tables} {a : Arrival}
    (hf : Follows past session) (ha : ¬a.Hijacks) (h : arrive session a = some session') :
    Follows (past ++ [a]) session' := by
  refine ⟨(reserved_step_iff hf.reserved hf.only h).mpr ha, onlyPublisher_step hf.only h, ?_, ?_⟩
  · intro t
    rw [latest_snoc, ← hf.publisher t]
    unfold Arrival.madeFor Arrival.made
    rcases registration_step hf.reserved hf.only h
      with ⟨info, pub, hinfo, hnew, hpub, -⟩ | ⟨hinfo, hpub, -⟩
    · rw [hinfo, hpub]
      dsimp only
      rw [hnew]
      dsimp only
      by_cases hid : info.topicId = t
      · rw [if_pos hid, ← hid, Function.update_self]
        rfl
      · rw [if_neg hid, Function.update_of_ne (Ne.symm hid)]
        rfl
    · rw [hinfo, hpub]
      rfl
  · intro t hzero hone
    rcases registration_step hf.reserved hf.only h
      with ⟨info, pub, -, -, hpub, hcb⟩ | ⟨-, hpub, hcb⟩
    · -- the two maps are written under the same key
      rw [hpub, hcb]
      by_cases hid : t = info.topicId
      · rw [hid, Function.update_self, Function.update_self]
        rfl
      · rw [Function.update_of_ne hid, Function.update_of_ne hid]
        exact hf.callback t hzero hone
    · rw [hpub, hcb]
      exact hf.callback t hzero hone

/-- How a session treats a topic id that belongs to `pub`, or to nobody. -/
structure RoutesTo (session : Session Tables) (t : UInt16) (pub : Option SerialPublisher) :
    Prop where
  publisher : session.tables.publisher t = pub
  callback : session.tables.callback t = pub.map .handle
  ignored : pub = none → ∀ env msg, route env t msg session.tables = .ok session.tables
  handled : ∀ p, pub = some p → ∀ env msg,
    route env t msg session.tables = published session.tables (p.handle env msg)
  unchanged : ∀ a session', a.packet.topicId = t → arrive session a = some session' →
    session'.tables.callback = session.tables.callback
      ∧ session'.tables.publisher = session.tables.publisher
      ∧ session'.tables.subscriber = session.tables.subscriber

theorem routesTo_of_callback {session : Session Tables} {t : UInt16}
    {pub : Option SerialPublisher} (hpub : session.tables.publisher t = pub)
    (hcb : session.tables.callback t = pub.map .handle) : RoutesTo session t pub where
  publisher := hpub
  callback := hcb
  ignored := by
    rintro rfl env msg
    unfold route
    rw [hcb]
    rfl
  handled := by
    rintro p rfl env msg
    exact route_handle hcb
  unchanged := by
    rintro a session' rfl h
    obtain ⟨-, tables, hroute, rfl⟩ := arrive_iff.mp h
    cases hp : pub with
    | none =>
        rw [hp] at hcb
        unfold route at hroute
        rw [hcb] at hroute
        obtain rfl := Except.ok.inj hroute
        exact ⟨rfl, rfl, rfl⟩
    | some p =>
        rw [hp] at hcb
        rw [route_handle hcb] at hroute
        exact published_frame hroute

/--
**Routing follows the latest registration.** After a run in which no publisher registration
names a reserved topic id, every other id belongs to the publisher that was last
registered for it.
-/
theorem routing_latest {es : List Arrival} (hes : ∀ a ∈ es, ¬a.Hijacks) {session : Session Tables}
    (h : Lts.exec arrive freshSession es = some session) {t : UInt16}
    (hzero : t ≠ TopicInfo.idPublisher) (hone : t ≠ TopicInfo.idSubscriber) :
    RoutesTo session t (latest es t) := by
  have hf : Follows ([] ++ es) session :=
    Lts.exec_history (fun _ _ _ _ hI hQ hstep => follows_step hI hQ hstep) hes follows_fresh h
  rw [List.nil_append] at hf
  have hpub := hf.publisher t
  refine routesTo_of_callback hpub ?_
  rw [← hpub]
  exact hf.callback t hzero hone

/-! ## Two registrations -/

/-- A packet on topic 0 that registers a publisher of type `p/B` under an id below 256. -/
def registerPacket (topicId checksum : UInt8) : Packet where
  topicId := 0
  payload := [topicId, 0, 1, 0, 0, 0, 0x74, 3, 0, 0, 0, 0x70, 0x2F, 0x42, 1, 0, 0, 0, 0x6D,
    0, 0, 0, 0]
  checksum := checksum
  short := by simp

/-- It arrives where the type is installed. -/
def registerArrival (topicId checksum : UInt8) : Arrival :=
  ⟨dataEnv .boolean 1, registerPacket topicId checksum⟩

/-- A packet that registers a subscription under id 101. -/
def subscribePacket : Packet := { registerPacket 101 210 with topicId := 1 }

theorem register_125 : ¬(registerArrival 125 187).Hijacks := by
  rintro ⟨info, hinfo, hid⟩
  have htopic : some 125 = some info.topicId := congrArg (Option.map TopicInfo.topicId) hinfo
  rw [← Option.some.inj htopic] at hid
  exact absurd hid (by decide)

theorem reserved_after_125 : Lts.Visits arrive Reserved freshSession [registerArrival 125 187] := by
  refine (reserved_iff rfl).mpr ?_
  intro a ha
  rw [List.mem_singleton.mp ha]
  exact register_125

/-- A device that registers a publisher under id 0 is routed to it from then on. -/
theorem registration_hijacked : ∃ session,
    Lts.exec arrive freshSession [registerArrival 0 56] = some session ∧ ¬Reserved session := by
  have hijacks : (registerArrival 0 56).Hijacks := ⟨_, rfl, Or.inl rfl⟩
  refine ⟨_, rfl, fun h => ?_⟩
  exact (reserved_step_iff reserved_fresh onlyPublisher_fresh rfl).mp h hijacks

/-- A device's packets about topic 125: a registration, one under another name, one whose
name would be too long, and a value. -/
def arrivals125 : List Arrival :=
  [registerArrival 125 187,
    ⟨dataEnv .boolean 1, { registerPacket 125 186 with
      payload := [125, 0, 1, 0, 0, 0, 0x75, 3, 0, 0, 0, 0x70, 0x2F, 0x42, 1, 0, 0, 0, 0x6D,
        0, 0, 0, 0]
      short := by simp }⟩,
    ⟨dataEnv .boolean 1, { topicId := 0, payload := [125, 0, 0x91, 1, 0, 0], checksum := 0xF0
                           short := by simp }⟩,
    ⟨dataEnv .boolean 1, { topicId := 125, payload := [1], checksum := 0x81, short := by simp }⟩]

/-- None of them names a reserved id. -/
theorem arrivals125_own : ∀ a ∈ arrivals125, ¬a.Hijacks := by
  have hids : ∀ a ∈ arrivals125,
      a.publisherInfo.map TopicInfo.topicId ∈ [none, some 125] := by decide
  rintro a ha ⟨info, hinfo, hid⟩
  have htopic := hids a ha
  rw [hinfo] at htopic
  simp only [Option.map_some, List.mem_cons, reduceCtorEq, Option.some.injEq, List.not_mem_nil,
    or_false, false_or] at htopic
  rw [htopic] at hid
  exact absurd hid (by decide)

/-- The value goes to the publisher of the second registration. -/
theorem routing_latest_125 : ∃ session pub,
    Lts.exec arrive freshSession arrivals125 = some session
      ∧ session.dispatched.length = 4 ∧ pub.topicInfo.topicName = [0x75]
      ∧ RoutesTo session 125 (some pub) := by
  have hrun : (Lts.exec arrive freshSession arrivals125).map (fun session =>
      session.dispatched.length) = some 4 := by
    decide +kernel
  have hlast : (latest arrivals125 125).map (fun pub => pub.topicInfo.topicName) = some [0x75] := by
    decide +kernel
  obtain ⟨session, hx, hfour⟩ := Option.map_eq_some_iff.mp hrun
  obtain ⟨pub, hpub, hname⟩ := Option.map_eq_some_iff.mp hlast
  refine ⟨session, pub, hx, hfour, hname, ?_⟩
  rw [← hpub]
  exact routing_latest arrivals125_own hx (by decide) (by decide)

end RosserialServer
