import RosserialServer.Proof.Routing

/-!
# Which topics can be used

`init` can stop at any of six lookups, and what it had set by then stays set; one failed
lookup does not stop it, and its null pointer is called. Neither constructor looks at the
result, so what is entered into the tables is usable exactly when every lookup succeeds,
or when rclcpp refuses the topic after all (`registered_usable_iff`). The publisher asks
rclcpp before it looks anything up, the subscriber afterwards.
-/

namespace RosserialServer

open Outcome RosStream StreamDeserialization

/-- `members_` and `type_cdr_support_` are both set. -/
def StreamDeserialization.Usable (d : StreamDeserialization) : Prop :=
  d.members.isSome = true ∧ d.typeCdrSupport = true

theorem new_not_usable : ¬StreamDeserialization.new.Usable := by
  intro h
  exact absurd h.1 (by simp [StreamDeserialization.new])

/-- Every lookup of `load_type_support` succeeds. -/
def FindsAll (env : RosEnv) (pkgName msgName : List UInt8) : Prop :=
  ∃ pre, env.getPackagePrefix pkgName = some pre ∧ env.access (libPath pre pkgName) = true
    ∧ env.dlopen (libName pkgName) = true
    ∧ (env.dlsymIntrospection (libName pkgName) (symbol pkgName msgName)).isSome = true
    ∧ env.dlopen (libNameCpp pkgName) = true
    ∧ env.dlsymCpp (libNameCpp pkgName) (funcNameCpp pkgName msgName) = true

/-- Every lookup for a type name succeeds, and there is a type name to look up. -/
def Supported (env : RosEnv) (messageType : List UInt8) : Prop :=
  ∃ pkgName msgName, typeParts messageType = some (pkgName, msgName)
    ∧ FindsAll env pkgName msgName

/-- The adapter that comes out of a returned `init` is usable if everything was found. -/
def LeavesUsable (r : Except Failure (Bool × StreamDeserialization)) (found : Prop) : Prop :=
  ∀ ok d, r = .ok (ok, d) → (d.Usable ↔ found)

theorem leavesUsable_of_not {ok : Bool} {d : StreamDeserialization} {found : Prop}
    (hd : ¬d.Usable) (hfound : ¬found) : LeavesUsable (.ok (ok, d)) found := by
  intro ok' d' heq
  obtain ⟨rfl, rfl⟩ := Prod.mk.inj (Except.ok.inj heq)
  exact iff_of_false hd hfound

theorem loadTypeSupport_leaves (env : RosEnv) (pkgName msgName : List UInt8) :
    LeavesUsable (loadTypeSupport env .new pkgName msgName) (FindsAll env pkgName msgName) := by
  unfold loadTypeSupport
  cases hpre : env.getPackagePrefix pkgName with
  | none =>
      refine leavesUsable_of_not new_not_usable ?_
      intro ⟨pre, hc, _⟩
      exact absurd (hpre.symm.trans hc) (by simp)
  | some pre =>
      dsimp only
      by_cases haccess : env.access (libPath pre pkgName) = true
      · rw [if_neg (by rw [haccess]; simp)]
        by_cases hopen : env.dlopen (libName pkgName) = true
        · rw [if_neg (by rw [hopen]; simp)]
          cases hsym : env.dlsymIntrospection (libName pkgName) (symbol pkgName msgName) with
          | none =>
              intro ok d heq
              exact absurd heq (by simp)
          | some members =>
              dsimp only
              by_cases hopenCpp : env.dlopen (libNameCpp pkgName) = true
              · rw [if_neg (by rw [hopenCpp]; simp)]
                by_cases hsymCpp :
                    env.dlsymCpp (libNameCpp pkgName) (funcNameCpp pkgName msgName) = true
                · rw [if_neg (by rw [hsymCpp]; simp)]
                  intro ok d heq
                  obtain ⟨-, rfl⟩ := Prod.mk.inj (Except.ok.inj heq)
                  exact iff_of_true ⟨rfl, rfl⟩
                    ⟨pre, hpre, haccess, hopen, by rw [hsym]; rfl, hopenCpp, hsymCpp⟩
                · -- `members_` is set, `type_cdr_support_` is not
                  rw [if_pos (by simpa using hsymCpp)]
                  refine leavesUsable_of_not (fun h => absurd h.2 (by simp [new])) ?_
                  intro ⟨_, _, _, _, _, _, hc⟩
                  exact hsymCpp hc
              · rw [if_pos (by simpa using hopenCpp)]
                refine leavesUsable_of_not (fun h => absurd h.2 (by simp [new])) ?_
                intro ⟨_, _, _, _, _, hc, _⟩
                exact hopenCpp hc
        · rw [if_pos (by simpa using hopen)]
          refine leavesUsable_of_not new_not_usable ?_
          intro ⟨_, _, _, hc, _⟩
          exact hopen hc
      · rw [if_pos (by simpa using haccess)]
        refine leavesUsable_of_not new_not_usable ?_
        intro ⟨pre', hpre', hc, _⟩
        obtain rfl : pre = pre' := Option.some.inj (hpre.symm.trans hpre')
        exact haccess hc

/-- **What `init` leaves is usable exactly when every lookup succeeded.** -/
theorem init_leaves (env : RosEnv) (topicInfo : TopicInfo) :
    LeavesUsable (init env .new topicInfo) (Supported env topicInfo.messageType) := by
  unfold init Supported
  cases htype : typeParts topicInfo.messageType with
  | none =>
      refine leavesUsable_of_not new_not_usable ?_
      intro ⟨_, _, hc, _⟩
      exact absurd hc (by simp)
  | some parts =>
      obtain ⟨pkgName, msgName⟩ := parts
      intro ok d heq
      refine (loadTypeSupport_leaves env pkgName msgName ok d heq).trans ⟨?_, ?_⟩
      · intro h
        exact ⟨pkgName, msgName, rfl, h⟩
      · intro ⟨pkgName', msgName', heq', h⟩
        obtain ⟨rfl, rfl⟩ := Prod.mk.inj (Option.some.inj heq')
        exact h

/-- With every lookup successful nothing unresolved is called. -/
theorem Supported.loadable {env : RosEnv} {messageType : List UInt8}
    (h : Supported env messageType) : Loadable env messageType := by
  obtain ⟨pkgName, msgName, htype, pre, hpre, -, -, hsym, -⟩ := h
  intro pkgName' msgName' htype' pre' hpre' _ _ hnull
  obtain ⟨rfl, rfl⟩ := Prod.mk.inj (Option.some.inj (htype.symm.trans htype'))
  rw [hnull] at hsym
  exact absurd hsym (by simp)

/-- `init` returns, or has called the null pointer. -/
theorem init_cases (env : RosEnv) (topicInfo : TopicInfo) :
    (∃ ok d, init env .new topicInfo = .ok (ok, d) ∧ Loadable env topicInfo.messageType)
      ∨ ∃ what, init env .new topicInfo = .error (.undefined what)
        ∧ ¬Loadable env topicInfo.messageType := by
  have hreturns := init_returns_iff env .new topicInfo
  cases hinit : init env .new topicInfo with
  | ok r => exact Or.inl ⟨r.1, r.2, rfl, hreturns.mp ⟨r, hinit⟩⟩
  | error f =>
      have hno : ¬Loadable env topicInfo.messageType := by
        rw [← hreturns, hinit]
        exact not_succeeds_error f
      cases f with
      | undefined what => exact Or.inr ⟨what, rfl, hno⟩
      | thrown e =>
          -- nothing in it throws
          exfalso
          unfold init at hinit
          split at hinit
          · exact absurd hinit (by simp)
          · unfold loadTypeSupport at hinit
            split at hinit
            · exact absurd hinit (by simp)
            · dsimp only at hinit
              split at hinit
              · exact absurd hinit (by simp)
              · split at hinit
                · exact absurd hinit (by simp)
                · split at hinit
                  · exact absurd hinit (by simp)
                  · split at hinit
                    · exact absurd hinit (by simp)
                    · split at hinit
                      · exact absurd hinit (by simp)
                      · exact absurd hinit (by simp)

/-! ## The constructors -/

/-- The constructor makes a usable adapter or throws, and calls nothing unresolved. -/
def MakesUsable {α : Type} (adapter : α → StreamDeserialization) (r : Except Failure α) : Prop :=
  match r with
  | .error (.thrown _) => True
  | .error (.undefined _) => False
  | .ok a => (adapter a).Usable

/-- When a publisher of the topic is usable, or is not made. -/
def PublisherSupported (env : RosEnv) (topicInfo : TopicInfo) : Prop :=
  (∃ e, env.createGenericPublisher topicInfo.topicName topicInfo.messageType = .error e)
    ∨ Supported env topicInfo.messageType

/-- When a subscriber of the topic is usable, or is not made; by then the lookups have been made. -/
def SubscriberSupported (env : RosEnv) (topicInfo : TopicInfo) : Prop :=
  (Loadable env topicInfo.messageType
      ∧ ∃ e, env.createGenericSubscription topicInfo.topicName topicInfo.messageType = .error e)
    ∨ Supported env topicInfo.messageType

theorem serialPublisher_usable_iff (env : RosEnv) (topicInfo : TopicInfo) :
    MakesUsable SerialPublisher.streamDeserialized (SerialPublisher.new env topicInfo)
      ↔ PublisherSupported env topicInfo := by
  unfold SerialPublisher.new PublisherSupported
  cases hcreate : env.createGenericPublisher topicInfo.topicName topicInfo.messageType with
  | error e => exact iff_of_true trivial (Or.inl ⟨e, rfl⟩)
  | ok u =>
      have hnone : ¬∃ e, (Except.ok u : Except StdException Unit) = .error e := by
        intro ⟨e, hc⟩
        exact absurd hc (by simp)
      rw [or_iff_right hnone]
      show MakesUsable _ (init env .new topicInfo >>= _) ↔ _
      rcases init_cases env topicInfo with ⟨ok, d, hinit, -⟩ | ⟨what, hinit, hno⟩
      · rw [hinit]
        exact init_leaves env topicInfo ok d hinit
      · rw [hinit]
        exact iff_of_false id fun h => hno h.loadable

theorem serialSubscriber_usable_iff (env : RosEnv) (topicInfo : TopicInfo) :
    MakesUsable SerialSubscriber.streamDeserialized (SerialSubscriber.new env topicInfo)
      ↔ SubscriberSupported env topicInfo := by
  unfold SerialSubscriber.new SubscriberSupported
  rcases init_cases env topicInfo with ⟨ok, d, hinit, hload⟩ | ⟨what, hinit, hno⟩
  · rw [hinit, ok_bind, and_iff_right hload]
    dsimp only
    cases env.createGenericSubscription topicInfo.topicName topicInfo.messageType with
    | error e => exact iff_of_true trivial (Or.inl ⟨e, rfl⟩)
    | ok u =>
        have hnone : ¬∃ e, (Except.ok u : Except StdException Unit) = .error e := by
          intro ⟨e, hc⟩
          exact absurd hc (by simp)
        rw [or_iff_right hnone]
        exact init_leaves env topicInfo ok d hinit
  · rw [hinit]
    refine iff_of_false id ?_
    intro h
    rcases h with ⟨hload, -⟩ | hall
    · exact hno hload
    · exact hno hall.loadable

/-! ## The tables -/

/-- Every registered adapter is usable. -/
structure Tables.AllUsable (tables : Tables) : Prop where
  callback : ∀ t pub, tables.callback t = some (.handle pub) → pub.streamDeserialized.Usable
  publisher : ∀ t pub, tables.publisher t = some pub → pub.streamDeserialized.Usable
  subscriber : ∀ t sub, tables.subscriber t = some sub → sub.streamDeserialized.Usable

theorem allUsable_new : Tables.new.AllUsable := by
  refine ⟨?_, ?_, ?_⟩
  · intro t pub h
    unfold Tables.new at h
    dsimp only at h
    rcases Decidable.eq_or_ne t TopicInfo.idSubscriber with rfl | hsub
    · rw [Function.update_self] at h
      exact absurd h (by simp)
    · rw [Function.update_of_ne hsub] at h
      rcases Decidable.eq_or_ne t TopicInfo.idPublisher with rfl | hpub
      · rw [Function.update_self] at h
        exact absurd h (by simp)
      · rw [Function.update_of_ne hpub] at h
        exact absurd h (by simp)
  · intro t pub h
    exact absurd h (by simp [Tables.new])
  · intro t sub h
    exact absurd h (by simp [Tables.new])

/-- A registration enters usable adapters only, and calls nothing unresolved on the way. -/
def EntersUsable (r : Except Failure Tables) : Prop :=
  match r with
  | .error (.thrown _) => True
  | .error (.undefined _) => False
  | .ok tables => tables.AllUsable

/-- One more entry of a table whose entries have a property. -/
theorem update_entries {α β : Type} [DecidableEq α] {f : α → Option β} {P : β → Prop}
    (h : ∀ t b, f t = some b → P b) {a : α} {b : β} (hb : P b) (t : α) (c : β)
    (hc : Function.update f a (some b) t = some c) : P c := by
  rcases Decidable.eq_or_ne t a with rfl | hne
  · rw [Function.update_self] at hc
    exact Option.some.inj hc ▸ hb
  · rw [Function.update_of_ne hne] at hc
    exact h t c hc

/-- The registrations `get_topic_info` accepts. -/
def Registered (msg : RosStream) (P : TopicInfo → Prop) : Prop :=
  ∀ topicInfo s, getTopicInfo {} msg = .ok (true, topicInfo, s) → P topicInfo

theorem registered_of_accepted {msg s : RosStream} {topicInfo : TopicInfo} {P : TopicInfo → Prop}
    (h : getTopicInfo {} msg = .ok (true, topicInfo, s)) : Registered msg P ↔ P topicInfo := by
  constructor
  · intro hall
    exact hall topicInfo s h
  · intro hP info s' h'
    rw [h] at h'
    obtain ⟨-, rfl, -⟩ : true = true ∧ topicInfo = info ∧ s = s' := by simpa using h'
    exact hP

theorem createPublisher_usable_iff (env : RosEnv) {tables : Tables} (h : tables.AllUsable)
    (msg : RosStream) :
    EntersUsable (createPublisher env tables msg) ↔ Registered msg (PublisherSupported env) := by
  unfold createPublisher
  cases hget : getTopicInfo {} msg with
  | error e =>
      refine iff_of_true trivial ?_
      intro info s hc
      exact absurd (hget.symm.trans hc) (by simp)
  | ok r =>
      obtain ⟨ok, info, s⟩ := r
      cases ok with
      | false =>
          refine iff_of_true h ?_
          intro info' s' hc
          exact absurd (hget.symm.trans hc) (by simp)
      | true =>
          rw [registered_of_accepted hget, ← serialPublisher_usable_iff]
          dsimp only
          cases SerialPublisher.new env info with
          | error f => cases f <;> exact Iff.rfl
          | ok pub =>
              constructor
              · intro hall
                exact hall.publisher info.topicId pub (Function.update_self _ _ _)
              · intro hpub
                refine ⟨?_, update_entries h.publisher hpub, h.subscriber⟩
                intro t pub' hc
                have hentry := update_entries (P := fun c : Callback => ∀ pub, c = .handle pub →
                  pub.streamDeserialized.Usable) (fun t c hc pub heq => h.callback t pub (heq ▸ hc))
                  (fun pub' heq => by injection heq with heq; exact heq ▸ hpub) t _ hc
                exact hentry pub' rfl

theorem createSubscriber_usable_iff (env : RosEnv) {tables : Tables} (h : tables.AllUsable)
    (msg : RosStream) :
    EntersUsable (createSubscriber env tables msg) ↔ Registered msg (SubscriberSupported env) := by
  unfold createSubscriber
  cases hget : getTopicInfo {} msg with
  | error e =>
      refine iff_of_true trivial ?_
      intro info s hc
      exact absurd (hget.symm.trans hc) (by simp)
  | ok r =>
      obtain ⟨ok, info, s⟩ := r
      cases ok with
      | false =>
          refine iff_of_true h ?_
          intro info' s' hc
          exact absurd (hget.symm.trans hc) (by simp)
      | true =>
          rw [registered_of_accepted hget, ← serialSubscriber_usable_iff]
          dsimp only
          cases SerialSubscriber.new env info with
          | error f => cases f <;> exact Iff.rfl
          | ok sub =>
              constructor
              · intro hall
                exact hall.subscriber info.topicId sub (Function.update_self _ _ _)
              · intro hsub
                exact ⟨h.callback, h.publisher, update_entries h.subscriber hsub⟩

/-! ## A run -/

/-- A validated body reaches the routing step; `env` is what the calls into ROS do then. -/
structure RoutedBody where
  env : RosEnv
  topicId : UInt16
  body : RosStream

/-- The routing step, if the callback returns. -/
def routeStep (tables : Tables) (d : RoutedBody) : Option Tables :=
  match route d.env d.topicId d.body tables with
  | .error _ => none
  | .ok tables' => some tables'

/-- A registration does not call an unresolved function. -/
def CallsResolved (tables : Tables) (d : RoutedBody) : Prop :=
  match tables.callback d.topicId with
  | some .createPublisher | some .createSubscriber =>
      ∀ what, route d.env d.topicId d.body tables ≠ .error (.undefined what)
  | _ => True

/-- A registration is of a topic whose lookups succeed, or that rclcpp refuses. -/
def Supports (tables : Tables) (d : RoutedBody) : Prop :=
  match tables.callback d.topicId with
  | some .createPublisher => Registered d.body (PublisherSupported d.env)
  | some .createSubscriber => Registered d.body (SubscriberSupported d.env)
  | _ => True

/-- What one registration comes to, for the tables after it and the calls on the way. -/
theorem entersUsable_iff (r : Except Failure Tables) :
    EntersUsable r ↔ (∀ what, r ≠ .error (.undefined what)) ∧ ∀ tables, r = .ok tables →
      tables.AllUsable := by
  cases r with
  | error f =>
      cases f with
      | thrown e => exact iff_of_true trivial ⟨by simp, by simp⟩
      | undefined what => exact iff_of_false id fun h => h.1 what rfl
  | ok tables =>
      constructor
      · intro h
        refine ⟨by simp, ?_⟩
        intro tables' heq
        exact Except.ok.inj heq ▸ h
      · intro h
        exact h.2 tables rfl

theorem routeStep_iff {tables tables' : Tables} {d : RoutedBody} :
    routeStep tables d = some tables'
      ↔ route d.env d.topicId d.body tables = .ok tables' := by
  unfold routeStep
  cases route d.env d.topicId d.body tables with
  | error f => simp
  | ok t => simp

/-- A body for a topic leaves the adapters as they are. -/
theorem AllUsable.handled {tables tables' : Tables} {d : RoutedBody} (h : tables.AllUsable)
    (hroute : route d.env d.topicId d.body tables = .ok tables')
    (hdata : tables.callback d.topicId = none
      ∨ ∃ pub, tables.callback d.topicId = some (.handle pub)) : tables'.AllUsable := by
  unfold route at hroute
  rcases hdata with hnone | ⟨pub, hpub⟩
  · rw [hnone] at hroute
    exact Except.ok.inj hroute ▸ h
  · rw [hpub] at hroute
    dsimp only at hroute
    rcases hrun : pub.handle d.env d.body with ⟨calls, result⟩
    rw [hrun] at hroute
    cases result with
    | error f => exact absurd hroute (by simp)
    | ok u => exact Except.ok.inj hroute ▸ ⟨h.callback, h.publisher, h.subscriber⟩

theorem usable_step_iff (tables : Tables) (d : RoutedBody) (h : tables.AllUsable) :
    (CallsResolved tables d ∧ ∀ tables', routeStep tables d = some tables' →
      tables'.AllUsable) ↔ Supports tables d := by
  unfold CallsResolved Supports
  simp only [routeStep_iff]
  cases hcb : tables.callback d.topicId with
  | none =>
      refine iff_of_true ⟨trivial, ?_⟩ trivial
      intro tables' hroute
      exact AllUsable.handled h hroute (Or.inl hcb)
  | some callback =>
      cases callback with
      | handle pub =>
          refine iff_of_true ⟨trivial, ?_⟩ trivial
          intro tables' hroute
          exact AllUsable.handled h hroute (Or.inr ⟨pub, hcb⟩)
      | createPublisher =>
          have hrun : route d.env d.topicId d.body tables = createPublisher d.env tables d.body := by
            unfold route
            rw [hcb]
          rw [hrun]
          exact (entersUsable_iff _).symm.trans (createPublisher_usable_iff d.env h d.body)
      | createSubscriber =>
          have hrun : route d.env d.topicId d.body tables
              = createSubscriber d.env tables d.body := by
            unfold route
            rw [hcb]
          rw [hrun]
          exact (entersUsable_iff _).symm.trans (createSubscriber_usable_iff d.env h d.body)

/--
**A topic is registered with a usable adapter exactly when its lookups succeed, or rclcpp
refuses it.** That holds for each registration, whatever the tables, and so for runs: every
adapter that `publish` or `subscribe` may be called on has both members set, and nothing
unresolved is called, if and only if each registration of the run is of such a topic.
-/
theorem registered_usable_iff (env : RosEnv) (tables : Tables) (msg : RosStream)
    (h : tables.AllUsable) (ds : List RoutedBody) :
    (EntersUsable (createPublisher env tables msg) ↔ Registered msg (PublisherSupported env))
      ∧ (EntersUsable (createSubscriber env tables msg) ↔ Registered msg (SubscriberSupported env))
      ∧ (Lts.Visits routeStep Tables.AllUsable Tables.new ds
          ∧ Lts.Takes routeStep CallsResolved Tables.new ds
        ↔ Lts.Takes routeStep Supports Tables.new ds) := by
  refine ⟨?_, ?_, ?_⟩
  · exact createPublisher_usable_iff env h msg
  · exact createSubscriber_usable_iff env h msg
  · exact Lts.visits_takes_iff usable_step_iff allUsable_new

/-- A publisher and a subscription of topic 125 are registered, and a value is sent on it. -/
def bodies125 : List RoutedBody :=
  [⟨dataEnv .boolean 1, TopicInfo.idPublisher, ofBuffer (registerPacket 125 187).payload⟩,
    ⟨dataEnv .boolean 1, TopicInfo.idSubscriber, ofBuffer (registerPacket 125 187).payload⟩,
    ⟨dataEnv .boolean 1, 125, ofBuffer [1]⟩]

/-- Where everything is installed both registrations enter usable adapters. -/
theorem registered_usable_bool :
    EntersUsable (createPublisher (dataEnv .boolean 1) .new
        (ofBuffer (registerPacket 125 187).payload))
      ∧ EntersUsable (createSubscriber (dataEnv .boolean 1) .new
        (ofBuffer (registerPacket 125 187).payload))
      ∧ Lts.Visits routeStep Tables.AllUsable Tables.new bodies125
      ∧ Lts.Takes routeStep CallsResolved Tables.new bodies125 := by
  have hall : ∀ messageType, typeParts messageType = some ([0x70], [0x42]) →
      Supported (dataEnv .boolean 1) messageType := by
    intro messageType htype
    exact ⟨_, _, htype, _, rfl, rfl, rfl, rfl, rfl, rfl⟩
  have hpublisher : Registered (ofBuffer (registerPacket 125 187).payload)
      (PublisherSupported (dataEnv .boolean 1)) := by
    rw [registered_of_accepted (s := ⟨some (registerPacket 125 187).payload, 23, 23⟩) rfl]
    exact Or.inr (hall _ rfl)
  have hsubscriber : Registered (ofBuffer (registerPacket 125 187).payload)
      (SubscriberSupported (dataEnv .boolean 1)) := by
    rw [registered_of_accepted (s := ⟨some (registerPacket 125 187).payload, 23, 23⟩) rfl]
    exact Or.inr (hall _ rfl)
  have hsupports : Lts.Takes routeStep Supports Tables.new bodies125 := by
    refine (Lts.takes_cons rfl).mpr ⟨hpublisher, ?_⟩
    refine (Lts.takes_cons rfl).mpr ⟨hsubscriber, ?_⟩
    exact (Lts.takes_cons rfl).mpr ⟨trivial, trivial⟩
  obtain ⟨hpub, hsub, hruns⟩ := registered_usable_iff (dataEnv .boolean 1) .new
    (ofBuffer (registerPacket 125 187).payload) allUsable_new bodies125
  exact ⟨hpub.mpr hpublisher, hsub.mpr hsubscriber, hruns.mpr hsupports⟩

/--
A package without the introspection library gets a publisher whose members were never set,
and for a message the package does not have the subscriber calls a null pointer.
-/
theorem registered_unusable :
    ¬EntersUsable (createPublisher { dataEnv .boolean 1 with access := fun _ => false } .new
        (ofBuffer (registerPacket 125 187).payload))
      ∧ ¬EntersUsable (createSubscriber
        { dataEnv .boolean 1 with dlsymIntrospection := fun _ _ => none } .new
        (ofBuffer (registerPacket 125 187).payload)) := by
  rw [createPublisher_usable_iff _ allUsable_new, createSubscriber_usable_iff _ allUsable_new,
    registered_of_accepted (s := ⟨some (registerPacket 125 187).payload, 23, 23⟩) rfl,
    registered_of_accepted (s := ⟨some (registerPacket 125 187).payload, 23, 23⟩) rfl]
  refine ⟨?_, ?_⟩
  · intro h
    rcases h with ⟨e, hc⟩ | ⟨_, _, _, _, _, hc, _⟩
    · exact absurd hc (by simp [dataEnv])
    · exact absurd hc (by simp)
  · intro h
    rcases h with ⟨-, e, hc⟩ | ⟨_, _, _, _, _, _, _, hc, _⟩
    · exact absurd hc (by simp [dataEnv])
    · exact absurd hc (by simp)

end RosserialServer
