import RosserialServer.Proof.Frames
import RosserialServer.Proof.Layout
import RosserialServer.Session.SerialDrive

/-!
# Which bodies the session survives

Nothing between a callback and the executor catches. So a validated body ends the session
exactly when its callback does not return. That is decided by the layout it reads by: it
throws when the layout misses a byte, and returns when it finds all of them, or refuses an
item first. Only a refused message object with storage of its own is not survived, since
`publish` goes on with it and destroys it again.
-/

namespace RosserialServer

open Bytes Outcome RosStream StreamDeserialization

/-- The ROS calls return. -/
structure RosEnv.NoThrow (env : RosEnv) : Prop where
  createGenericPublisher : ∀ name type, env.createGenericPublisher name type = .ok ()
  createGenericSubscription : ∀ name type, env.createGenericSubscription name type = .ok ()
  rmwSerialize : ∀ msgObj, Succeeds (env.rmwSerialize msgObj)
  publish : ∀ cdr, env.publish cdr = .ok ()

/-! ## Registrations -/

/-- The introspection library of the package, if it is found, has the type's function. -/
def Resolves (env : RosEnv) (pkgName msgName : List UInt8) : Prop :=
  ∀ pre, env.getPackagePrefix pkgName = some pre → env.access (libPath pre pkgName) = true →
    env.dlopen (libName pkgName) = true →
    env.dlsymIntrospection (libName pkgName) (symbol pkgName msgName) ≠ none

theorem loadTypeSupport_returns_iff (env : RosEnv) (d : StreamDeserialization)
    (pkgName msgName : List UInt8) :
    Succeeds (loadTypeSupport env d pkgName msgName) ↔ Resolves env pkgName msgName := by
  unfold loadTypeSupport Resolves
  cases env.getPackagePrefix pkgName with
  | none =>
      refine iff_of_true (succeeds_ok _) ?_
      intro pre hpre
      exact absurd hpre (by simp)
  | some pre =>
      dsimp only
      by_cases haccess : env.access (libPath pre pkgName) = true
      · by_cases hopen : env.dlopen (libName pkgName) = true
        · rw [if_neg (by rw [haccess]; simp), if_neg (by rw [hopen]; simp)]
          cases env.dlsymIntrospection (libName pkgName) (symbol pkgName msgName) with
          | none =>
              -- the null pointer is called
              exact iff_of_false (not_succeeds_error _) fun h => h pre rfl haccess hopen rfl
          | some members =>
              refine iff_of_true ?_ fun _ _ _ _ => by simp
              dsimp only
              split
              · exact succeeds_ok _
              · split
                · exact succeeds_ok _
                · exact succeeds_ok _
        · rw [if_neg (by rw [haccess]; simp), if_pos (by simpa using hopen)]
          refine iff_of_true (succeeds_ok _) ?_
          intro _ _ _ hc
          exact absurd hc hopen
      · rw [if_pos (by simpa using haccess)]
        refine iff_of_true (succeeds_ok _) ?_
        intro pre' hpre hc
        obtain rfl := Option.some.inj hpre
        exact absurd hc haccess

/-- `Resolves`, for the parts of a type name. -/
def Loadable (env : RosEnv) (messageType : List UInt8) : Prop :=
  ∀ pkgName msgName, typeParts messageType = some (pkgName, msgName) →
    Resolves env pkgName msgName

theorem init_returns_iff (env : RosEnv) (d : StreamDeserialization) (topicInfo : TopicInfo) :
    Succeeds (init env d topicInfo) ↔ Loadable env topicInfo.messageType := by
  unfold init Loadable
  cases typeParts topicInfo.messageType with
  | none =>
      refine iff_of_true (succeeds_ok _) ?_
      intro _ _ hc
      exact absurd hc (by simp)
  | some parts =>
      obtain ⟨pkgName, msgName⟩ := parts
      refine (loadTypeSupport_returns_iff env d pkgName msgName).trans ⟨?_, ?_⟩
      · intro h pkgName' msgName' heq
        obtain ⟨rfl, rfl⟩ := Prod.mk.inj (Option.some.inj heq)
        exact h
      · intro h
        exact h pkgName msgName rfl

/-- A registration body that is survived. -/
def Registers (env : RosEnv) (body : List UInt8) : Prop :=
  match scan registration body with
  | .accepted _ => Loadable env (registeredType body)
  | .rejected => True
  | .starved => False

/-- The endings of `get_topic_info`, and what each means for the body. -/
theorem registration_cases (env : RosEnv) (body : List UInt8) :
    ((∃ e, getTopicInfo {} (ofBuffer body) = .error e) ∧ ¬Registers env body)
    ∨ ((∃ info s, getTopicInfo {} (ofBuffer body) = .ok (false, info, s)) ∧ Registers env body)
    ∨ ∃ info s, getTopicInfo {} (ofBuffer body) = .ok (true, info, s)
        ∧ (Loadable env info.messageType ↔ Registers env body) := by
  have hagrees := getTopicInfo_agrees {} (reading_ofBuffer body)
  unfold Registers
  cases hscan : scan registration body with
  | starved =>
      rw [hscan] at hagrees
      exact Or.inl ⟨hagrees, id⟩
  | rejected =>
      rw [hscan] at hagrees
      exact Or.inr (Or.inl ⟨hagrees, trivial⟩)
  | accepted rest =>
      rw [hscan] at hagrees
      obtain ⟨info, s, hget, -⟩ := hagrees
      refine Or.inr (Or.inr ⟨info, s, hget, ?_⟩)
      rw [getTopicInfo_messageType (reading_ofBuffer body) hget]

/-! The rest is for an environment whose calls return. -/

section Quiet

variable {env : RosEnv} (henv : env.NoThrow)

include henv

theorem serialPublisher_returns_iff (topicInfo : TopicInfo) :
    Succeeds (SerialPublisher.new env topicInfo) ↔ Loadable env topicInfo.messageType := by
  unfold SerialPublisher.new
  rw [henv.createGenericPublisher]
  exact succeeds_bind_ok.trans (init_returns_iff env .new topicInfo)

theorem serialSubscriber_returns_iff (topicInfo : TopicInfo) :
    Succeeds (SerialSubscriber.new env topicInfo) ↔ Loadable env topicInfo.messageType := by
  unfold SerialSubscriber.new
  rw [henv.createGenericSubscription]
  exact succeeds_bind_ok.trans (init_returns_iff env .new topicInfo)

theorem createPublisher_returns_iff (tables : Tables) (body : List UInt8) :
    Succeeds (createPublisher env tables (ofBuffer body)) ↔ Registers env body := by
  unfold createPublisher
  rcases registration_cases env body with ⟨⟨e, hget⟩, hno⟩ | ⟨⟨info, s, hget⟩, hyes⟩
    | ⟨info, s, hget, hiff⟩
  · rw [hget]
    exact iff_of_false (not_succeeds_error _) hno
  · rw [hget]
    exact iff_of_true (succeeds_ok _) hyes
  · rw [hget, ← hiff, ← serialPublisher_returns_iff henv]
    dsimp only
    cases SerialPublisher.new env info with
    | error f => simp
    | ok pub => simp

theorem createSubscriber_returns_iff (tables : Tables) (body : List UInt8) :
    Succeeds (createSubscriber env tables (ofBuffer body)) ↔ Registers env body := by
  unfold createSubscriber
  rcases registration_cases env body with ⟨⟨e, hget⟩, hno⟩ | ⟨⟨info, s, hget⟩, hyes⟩
    | ⟨info, s, hget, hiff⟩
  · rw [hget]
    exact iff_of_false (not_succeeds_error _) hno
  · rw [hget]
    exact iff_of_true (succeeds_ok _) hyes
  · rw [hget, ← hiff, ← serialSubscriber_returns_iff henv]
    dsimp only
    cases SerialSubscriber.new env info with
    | error f => simp
    | ok sub => simp

/-! ## Data -/

omit henv in
theorem finish_returns_iff (finiFunction alive : Bool) (calls : List RosCall) :
    (finish finiFunction alive calls).2 = .ok () ↔ (finiFunction = true → alive = true) := by
  unfold finish
  cases finiFunction with
  | false => exact iff_of_true rfl (by simp)
  | true =>
      cases alive with
      | false => exact iff_of_false (by simp) (by simp)
      | true => exact iff_of_true rfl (by simp)

theorem publishObject_returns_iff (typeCdrSupport finiFunction alive : Bool) (msgObj : MsgObject) :
    (publishObject env typeCdrSupport finiFunction alive msgObj).2 = .ok ()
      ↔ (env.rmwSerializedMessageInit = true → typeCdrSupport = true)
        ∧ (finiFunction = true → alive = true) := by
  unfold publishObject
  by_cases hinit : env.rmwSerializedMessageInit = true
  · rw [if_neg (by rw [hinit]; simp)]
    by_cases hcdr : typeCdrSupport = true
    · rw [if_neg (by rw [hcdr]; simp), and_iff_right fun _ => hcdr]
      obtain ⟨cdr, hserialize⟩ := henv.rmwSerialize msgObj
      rw [hserialize]
      cases cdr with
      | none => exact finish_returns_iff finiFunction alive _
      | some bytes =>
          dsimp only
          rw [henv.publish]
          exact finish_returns_iff finiFunction alive _
    · rw [if_pos (by simpa using hcdr)]
      exact iff_of_false (by simp) fun h => hcdr (h.1 hinit)
  · rw [if_pos (by simpa using hinit), and_iff_right fun h => absurd h hinit]
    exact finish_returns_iff finiFunction alive _

/-- A data body that is survived by the publisher it is routed to. -/
def Decodes (env : RosEnv) (d : StreamDeserialization) (body : List UInt8) : Prop :=
  ∃ members, d.members = some members
    ∧ (env.rmwSerializedMessageInit = true → d.typeCdrSupport = true)
    ∧ match scan (layout members.members) body with
      | .accepted _ => True
      | .rejected => members.finiFunction = true → triviallyDestructible members.members = true
      | .starved => False

theorem publish_returns_iff (d : StreamDeserialization) (body : List UInt8) :
    (publish env d (ofBuffer body)).2 = .ok () ↔ Decodes env d body := by
  unfold publish Decodes
  cases d.members with
  | none =>
      refine iff_of_false (by simp) ?_
      rintro ⟨_, hc, _⟩
      exact absurd hc (by simp)
  | some members =>
      have hagrees := deserialize_agrees (reading_ofBuffer body)
        (members.initFunction.getD []) members.members
      have hone : ∀ P : MessageMembers → Prop, (∃ m, some members = some m ∧ P m) ↔ P members := by
        intro P
        simp
      rw [hone]
      dsimp only
      cases hscan : scan (layout members.members) body with
      | starved =>
          rw [hscan] at hagrees
          obtain ⟨e, hrun⟩ := hagrees
          rw [hrun]
          exact iff_of_false (by simp) fun h => h.2
      | accepted rest =>
          rw [hscan] at hagrees
          obtain ⟨obj, s, hrun, -⟩ := hagrees
          rw [hrun]
          refine (publishObject_returns_iff henv _ _ _ obj).trans (and_congr_right fun _ => ?_)
          exact iff_of_true (fun _ => rfl) trivial
      | rejected =>
          -- a body that is refused goes on like one that is accepted, with a destroyed object
          rw [hscan] at hagrees
          obtain ⟨obj, s, hrun⟩ := hagrees
          rw [hrun]
          exact publishObject_returns_iff henv _ _ _ obj

end Quiet

/-- What is survived by the callback a body is routed to. -/
def Contained (env : RosEnv) (body : List UInt8) : Option Callback → Prop
  | none => True
  | some .createPublisher => Registers env body
  | some .createSubscriber => Registers env body
  | some (.handle pub) => Decodes env pub.streamDeserialized body

theorem route_returns_iff {env : RosEnv} (henv : env.NoThrow) (topicId : UInt16)
    (body : List UInt8) (tables : Tables) :
    Succeeds (route env topicId (ofBuffer body) tables)
      ↔ Contained env body (tables.callback topicId) := by
  unfold route
  cases tables.callback topicId with
  | none => exact iff_of_true (succeeds_ok _) trivial
  | some callback =>
      cases callback with
      | createPublisher => exact createPublisher_returns_iff henv tables body
      | createSubscriber => exact createSubscriber_returns_iff henv tables body
      | handle pub =>
          refine Iff.trans ?_ (publish_returns_iff henv pub.streamDeserialized body)
          dsimp only
          unfold SerialPublisher.handle
          obtain ⟨calls, result⟩ := publish env pub.streamDeserialized (ofBuffer body)
          cases result with
          | error f => simp
          | ok u => simp

/--
The head is read again behind a validated body exactly when its callback finds what it
reads: a body that ends before an item its layout still reads throws past everything, and so
does an empty string; a body with an item that is refused first is survived, unless its
object is destroyed twice.
-/
theorem readBody_rearms_iff {env : RosEnv} (henv : env.NoThrow) (session : Session Tables)
    (p : Packet) (h : p.accepted = true) :
    (readBody (route env) session (ofBuffer (p.payload ++ [p.checksum])) p.topicId).2
        = readAsyncHead
      ↔ Contained env p.payload (session.tables.callback p.topicId) := by
  have hshort := p.short
  rw [readBody_spec _ _ _ (by omega), ← route_returns_iff henv p.topicId p.payload session.tables]
  unfold Packet.accepted at h
  unfold routeBody
  rw [if_pos h]
  cases route env p.topicId (ofBuffer p.payload) session.tables with
  | error f => exact iff_of_false (by simp [readAsyncHead]) (not_succeeds_error f)
  | ok tables => exact iff_of_true rfl (succeeds_ok tables)

/-- The description of a type with one plain member `data`, such as those of `std_msgs`. -/
def dataType (typeId : TypeId) (size : Nat) : MessageMembers where
  sizeOf := size
  members := [⟨"data", typeId, .single, []⟩]
  initFunction := some [[.raw (List.replicate size 0)]]
  finiFunction := true

/-- An installation that has this one type, and whose calls return. -/
def dataEnv (typeId : TypeId) (size : Nat) : RosEnv where
  getPackagePrefix := fun _ => some (chars "/opt/ros")
  access := fun _ => true
  dlopen := fun _ => true
  dlsymIntrospection := fun _ _ => some (dataType typeId size)
  dlsymCpp := fun _ _ => true
  createGenericPublisher := fun _ _ => .ok ()
  createGenericSubscription := fun _ _ => .ok ()
  rmwSerializedMessageInit := true
  rmwSerialize := fun msgObj => match msgObj with
    | [[.raw bytes]] => .ok (some ([0, 1, 0, 0] ++ bytes))
    | _ => .ok none
  publish := fun _ => .ok ()

theorem dataEnv_noThrow (typeId : TypeId) (size : Nat) : (dataEnv typeId size).NoThrow where
  createGenericPublisher := fun _ _ => rfl
  createGenericSubscription := fun _ _ => rfl
  rmwSerialize := by
    intro msgObj
    unfold dataEnv
    dsimp only
    split
    · exact succeeds_ok _
    · exact succeeds_ok _
  publish := fun _ => rfl

/-- The publisher of a topic 125 of such a type. -/
def dataPublisher (typeId : TypeId) (size : Nat) : SerialPublisher where
  topicInfo := { topicId := 125 }
  streamDeserialized := ⟨some (dataType typeId size), true⟩

end RosserialServer
