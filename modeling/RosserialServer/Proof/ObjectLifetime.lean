import RosserialServer.Proof.Containment
import RosserialServer.Proof.Exactness
import RosserialServer.RosAdapter.ObjectUses

/-!
# The lifetime of the message object

Both functions construct an object, convert it, and destroy it behind the conversion. A
payload the decoder refuses is destroyed at once as well, and the function goes on to
serialize it and destroys it again; an exception from any of the conversions destroys
nothing. What is left is `finalised_once_iff`.
-/

namespace RosserialServer

open Outcome RosStream StreamDeserialization

/-! ## The uses are those of the functions -/

/-- What is recorded as a `RosCall` is what is done to the object and no conversion. -/
def Records (calls : List RosCall) (uses : List ObjectUse) : Prop :=
  calls.filterMap RosCall.objectUse = uses.filter fun u => !u.converts

theorem Records.append {calls calls' : List RosCall} {uses uses' : List ObjectUse}
    (h : Records calls uses) (h' : Records calls' uses') :
    Records (calls ++ calls') (uses ++ uses') := by
  unfold Records
  rw [List.filterMap_append, List.filter_append, h, h']

/-- A conversion leaves no record. -/
theorem Records.convert {calls : List RosCall} {u : ObjectUse} {uses : List ObjectUse}
    (hu : u.converts = true) (h : Records calls uses) : Records calls (u :: uses) := by
  unfold Records
  rw [List.filter_cons, hu]
  exact h

theorem records_nil : Records [] [] := rfl

theorem records_inits (members : MessageMembers) :
    Records (if members.initFunction.isSome then [.initFunction] else []) (inits members) := by
  unfold inits
  cases members.initFunction with
  | none => rfl
  | some msgObj => rfl

theorem records_finis (members : MessageMembers) :
    Records (if members.finiFunction then [.finiFunction] else []) (finis members) := by
  unfold finis
  cases members.finiFunction with
  | false => rfl
  | true => rfl

theorem records_finish (members : MessageMembers) (alive : Bool) {calls : List RosCall}
    {uses : List ObjectUse} (h : Records calls uses) :
    Records (finish members.finiFunction alive calls).1 (uses ++ finis members) := by
  have hfinis := records_finis members
  unfold finish
  cases hfini : members.finiFunction with
  | false =>
      rw [hfini] at hfinis
      have happend := h.append hfinis
      rwa [if_neg (by simp), List.append_nil] at happend
  | true =>
      rw [hfini] at hfinis
      cases alive with
      | false => exact h.append hfinis
      | true => exact h.append hfinis

theorem records_publishObject (env : RosEnv) (typeCdrSupport alive : Bool)
    (members : MessageMembers) (msgObj : MsgObject) :
    Records (publishObject env typeCdrSupport members.finiFunction alive msgObj).1
      (publishObjectUses env typeCdrSupport members msgObj) := by
  have hserialized : Records [.rmwSerialize msgObj] [.rmwSerialize] := rfl
  unfold publishObject publishObjectUses
  split
  · exact records_finish members alive records_nil
  · split
    · rfl
    · rcases env.rmwSerialize msgObj with e | _ | cdr
      · exact hserialized
      · exact records_finish members alive hserialized
      · have hpublished : Records [.rmwSerialize msgObj, .publish cdr] [.rmwSerialize] := rfl
        dsimp only
        cases env.publish cdr with
        | error e => exact hpublished
        | ok _ => exact records_finish members alive hpublished

/-- **`publishUses` is what `publish` does to the object.** -/
theorem publish_records (env : RosEnv) (d : StreamDeserialization) (stream : RosStream) :
    Records (publish env d stream).1 (publishUses env d stream) := by
  unfold publish publishUses
  cases d.members with
  | none => exact records_nil
  | some members =>
      have hinits := records_inits members
      dsimp only
      rcases deserializeRos1ToStruct stream (members.initFunction.getD []) members.members with
        e | ⟨parseSuccess, msgObj, s⟩
      · have hall := hinits.append (records_nil.convert (u := .deserializeRos1ToStruct) rfl)
        rw [List.append_nil] at hall
        exact hall
      · have hobject := records_publishObject env d.typeCdrSupport
          (parseSuccess || triviallyDestructible members.members) members msgObj
        dsimp only
        rw [List.append_assoc]
        refine hinits.append (Records.convert rfl (Records.append ?_ hobject))
        cases parseSuccess with
        | true => exact records_nil
        | false => exact records_finis members

/-- **`subscribeUses` is what `subscribe` does to it.** -/
theorem subscribe_records (d : StreamDeserialization)
    (deserialized : Except StdException (Option MsgObject)) :
    Records (subscribe d deserialized).1 (subscribeUses d deserialized) := by
  unfold subscribe subscribeUses
  cases d.members with
  | none => exact records_nil
  | some members =>
      have hinits := records_inits members
      have hfinis := records_finis members
      -- what comes after `init_function` if nothing is recorded any more
      have hlast : ∀ {uses : List ObjectUse}, Records [] uses →
          Records (if members.initFunction.isSome then [.initFunction] else [])
            (inits members ++ uses) := by
        intro uses huses
        have hall := hinits.append huses
        rwa [List.append_nil] at hall
      dsimp only
      split
      · exact hlast records_nil
      · rcases deserialized with e | _ | msgObj
        · exact hlast (records_nil.convert rfl)
        · exact hinits.append (hfinis.convert rfl)
        · dsimp only
          cases serializedStructToRos1 msgObj (.new members.sizeOf) members.members with
          | error f => exact hlast ((records_nil.convert rfl).convert rfl)
          | ok r => exact hinits.append ((hfinis.convert rfl).convert rfl)

/-! ## Exactly once -/

/--
The call ends, and has destroyed the object exactly once and not read it since. `uses` is
what it has done to the object, and `result` how it ended.
-/
structure FinalisedOnce {α : Type} (uses : List ObjectUse) (result : Except Failure α) : Prop where
  once : uses.count .finiFunction = 1
  unread : uses.Pairwise fun u v => u = .finiFunction → v.reads = false
  ends : ∀ what, result ≠ .error (.undefined what)

/-- Neither `rmw_serialize` nor `publish` throws, and they are given the type support. -/
def RmwReturns (env : RosEnv) (typeCdrSupport : Bool) (msgObj : MsgObject) : Prop :=
  env.rmwSerializedMessageInit = true → typeCdrSupport = true
    ∧ ∃ r, env.rmwSerialize msgObj = .ok r ∧ ∀ cdr, r = some cdr → env.publish cdr = .ok ()

/-- When `publish` destroys the object it has constructed once. -/
def PublishesSound (env : RosEnv) (d : StreamDeserialization) (members : MessageMembers)
    (msgObj : MsgObject) (payload : List UInt8) : Prop :=
  (∃ rest, scan (layout members.members) payload = .accepted rest)
    ∧ ∀ obj s, deserializeRos1ToStruct (ofBuffer payload) msgObj members.members
        = .ok (true, obj, s) → RmwReturns env d.typeCdrSupport obj

/-- When `subscribe` does. -/
def SubscribesSound (d : StreamDeserialization) (members : MessageMembers)
    (deserialized : Except StdException (Option MsgObject)) : Prop :=
  d.typeCdrSupport = true ∧
    match deserialized with
    | .error _ => False
    | .ok none => True
    | .ok (some _) =>
        match firstStop (plan members.members) with
        | none | some .refused => True
        | some .thrown | some .undefined => False

section Publish

variable {env : RosEnv} {d : StreamDeserialization} {members : MessageMembers}
  {msgObj : MsgObject}

theorem finis_of (hfini : members.finiFunction = true) : finis members = [.finiFunction] :=
  if_pos hfini

theorem inits_of (hinit : members.initFunction = some msgObj) :
    inits members = [.initFunction] := by
  unfold inits
  rw [hinit]
  rfl

/-- What the second half of `publish` does to an object, by what the ROS calls do. -/
theorem publishObjectUses_cases (env : RosEnv) (msgObj : MsgObject)
    (hfini : members.finiFunction = true) (typeCdrSupport : Bool) :
    (RmwReturns env typeCdrSupport msgObj
        ∧ (publishObjectUses env typeCdrSupport members msgObj = [.finiFunction]
          ∨ publishObjectUses env typeCdrSupport members msgObj = [.rmwSerialize, .finiFunction])
        ∧ (publishObject env typeCdrSupport true true msgObj).2 = .ok ())
      ∨ (¬RmwReturns env typeCdrSupport msgObj
        ∧ (publishObjectUses env typeCdrSupport members msgObj = []
            ∧ (∀ alive, ∃ what, (publishObject env typeCdrSupport true alive msgObj).2
              = .error (.undefined what))
          ∨ publishObjectUses env typeCdrSupport members msgObj = [.rmwSerialize])) := by
  have hfinis := finis_of hfini
  unfold publishObjectUses publishObject RmwReturns
  rw [hfinis]
  cases hinit : env.rmwSerializedMessageInit with
  | false => exact Or.inl ⟨by simp, Or.inl rfl, rfl⟩
  | true =>
      cases typeCdrSupport with
      | false => exact Or.inr ⟨by simp, Or.inl ⟨rfl, fun _ => ⟨_, rfl⟩⟩⟩
      | true =>
          cases hserialize : env.rmwSerialize msgObj with
          | error e => exact Or.inr ⟨by simp, Or.inr rfl⟩
          | ok r =>
              cases r with
              | none => exact Or.inl ⟨by simp, Or.inr rfl, rfl⟩
              | some cdr =>
                  cases hpublish : env.publish cdr with
                  | error e => exact Or.inr ⟨by simp [hpublish], Or.inr (by simp [hpublish])⟩
                  | ok u =>
                      exact Or.inl ⟨by simp [hpublish], Or.inr (by simp [hpublish]),
                        by simp [finish, hpublish]⟩

/-- An object that is constructed and never destroyed. -/
theorem not_once_of_leak {α : Type} {uses : List ObjectUse} {result : Except Failure α}
    (h : ObjectUse.finiFunction ∉ uses) : ¬FinalisedOnce uses result := by
  intro honce
  have hcount := honce.once
  rw [List.count_eq_zero_of_not_mem h] at hcount
  omega

variable (hmembers : d.members = some members) (hinit : members.initFunction = some msgObj)
  (hfini : members.finiFunction = true)

include hmembers hinit hfini

theorem publishUses_eq (stream : RosStream) :
    publishUses env d stream = .initFunction :: .deserializeRos1ToStruct ::
      match deserializeRos1ToStruct stream msgObj members.members with
      | .error _ => []
      | .ok (parseSuccess, obj, _) =>
          (if parseSuccess then [] else [.finiFunction])
            ++ publishObjectUses env d.typeCdrSupport members obj := by
  unfold publishUses
  rw [hmembers]
  dsimp only
  rw [inits_of hinit, finis_of hfini, hinit]
  rfl

theorem publish_result {stream : RosStream} {parseSuccess : Bool} {obj : MsgObject} {s : RosStream}
    (h : deserializeRos1ToStruct stream msgObj members.members = .ok (parseSuccess, obj, s)) :
    (publish env d stream).2 = (publishObject env d.typeCdrSupport true
      (parseSuccess || triviallyDestructible members.members) obj).2 := by
  unfold publish
  rw [hmembers]
  dsimp only
  rw [hinit, Option.getD_some, h, hfini]

/-- A decoded object is destroyed once exactly if the ROS calls return. -/
theorem accepted_finalised_iff {stream : RosStream} {obj : MsgObject} {s : RosStream}
    (h : deserializeRos1ToStruct stream msgObj members.members = .ok (true, obj, s)) :
    FinalisedOnce (publishUses env d stream) (publish env d stream).2
      ↔ RmwReturns env d.typeCdrSupport obj := by
  rw [publishUses_eq hmembers hinit hfini, publish_result hmembers hinit hfini h, h]
  dsimp only
  rw [if_pos rfl, List.nil_append, Bool.true_or]
  rcases publishObjectUses_cases env obj hfini d.typeCdrSupport with
    ⟨hreturns, huses, hend⟩ | ⟨hreturns, huses⟩
  · rw [hend]
    refine iff_of_true ?_ hreturns
    rcases huses with huses | huses
    · rw [huses]
      exact ⟨rfl, by decide, by simp⟩
    · rw [huses]
      exact ⟨rfl, by decide, by simp⟩
  · refine iff_of_false ?_ hreturns
    rcases huses with ⟨huses, -⟩ | huses
    · rw [huses]
      exact not_once_of_leak (by decide)
    · rw [huses]
      exact not_once_of_leak (by decide)

/-- A refused one is destroyed at once, and then used. -/
theorem rejected_not_finalised {stream : RosStream} {obj : MsgObject} {s : RosStream}
    (h : deserializeRos1ToStruct stream msgObj members.members = .ok (false, obj, s)) :
    ¬FinalisedOnce (publishUses env d stream) (publish env d stream).2 := by
  rw [publishUses_eq hmembers hinit hfini, publish_result hmembers hinit hfini h, h]
  dsimp only
  rw [if_neg (by simp)]
  intro honce
  rcases publishObjectUses_cases env obj hfini d.typeCdrSupport with
    ⟨-, huses | huses, -⟩ | ⟨-, ⟨huses, hundefined⟩ | huses⟩
  · rw [huses] at honce
    exact absurd honce.once (by decide)
  · rw [huses] at honce
    exact absurd honce.once (by decide)
  · obtain ⟨what, hwhat⟩ := hundefined (false || triviallyDestructible members.members)
    exact honce.ends what hwhat
  · rw [huses] at honce
    exact absurd honce.unread (by decide)

theorem publish_finalises_iff (payload : List UInt8) :
    FinalisedOnce (publishUses env d (ofBuffer payload)) (publish env d (ofBuffer payload)).2
      ↔ PublishesSound env d members msgObj payload := by
  have hagrees := deserialize_agrees (reading_ofBuffer payload) msgObj members.members
  unfold PublishesSound
  cases hscan : scan (layout members.members) payload with
  | accepted rest =>
      rw [hscan] at hagrees
      obtain ⟨obj, s, hrun, -⟩ := hagrees
      rw [accepted_finalised_iff hmembers hinit hfini hrun, hrun]
      constructor
      · intro hreturns
        refine ⟨⟨rest, rfl⟩, ?_⟩
        intro obj' s' hsame
        obtain ⟨-, rfl, rfl⟩ : true = true ∧ obj = obj' ∧ s = s' := by simpa using hsame
        exact hreturns
      · intro ⟨_, hall⟩
        exact hall obj s rfl
  | rejected =>
      rw [hscan] at hagrees
      obtain ⟨obj, s, hrun⟩ := hagrees
      refine iff_of_false (rejected_not_finalised hmembers hinit hfini hrun) ?_
      rintro ⟨⟨rest, hc⟩, -⟩
      exact absurd hc (by simp)
  | starved =>
      rw [hscan] at hagrees
      obtain ⟨e, hrun⟩ := hagrees
      refine iff_of_false ?_ ?_
      · rw [publishUses_eq hmembers hinit hfini, hrun]
        exact not_once_of_leak (by simp)
      · rintro ⟨⟨rest, hc⟩, -⟩
        exact absurd hc (by simp)

/-- What `subscribe` does to an object it has got, by how the encoder ends. -/
theorem subscribeUses_eq (hsupport : d.typeCdrSupport = true)
    (deserialized : Except StdException (Option MsgObject)) :
    subscribeUses d deserialized = .initFunction :: .rmwDeserialize ::
      match deserialized with
      | .error _ => []
      | .ok none => [.finiFunction]
      | .ok (some obj) =>
          .serializedStructToRos1 ::
            match serializedStructToRos1 obj (.new members.sizeOf) members.members with
            | .error _ => []
            | .ok _ => [.finiFunction] := by
  unfold subscribeUses
  rw [hmembers]
  dsimp only
  rw [inits_of hinit, finis_of hfini, if_neg (by simp [hsupport])]
  rfl

omit hinit hfini in
/-- A returned result is not undefined behaviour. -/
theorem subscribe_returns (hsupport : d.typeCdrSupport = true) :
    (subscribe d (.ok none)).2 = .ok (.new members.sizeOf)
      ∧ ∀ obj r, serializedStructToRos1 obj (.new members.sizeOf) members.members = .ok r →
        (subscribe d (.ok (some obj))).2 = .ok r.2 := by
  unfold subscribe
  rw [hmembers]
  dsimp only
  rw [if_neg (by simp [hsupport])]
  refine ⟨rfl, ?_⟩
  intro obj r hr
  rw [if_neg (by simp [hsupport]), hr]

theorem subscribe_finalises_iff (deserialized : Except StdException (Option MsgObject))
    (hty : ∀ obj, deserialized = .ok (some obj) → HasType members.members obj) :
    FinalisedOnce (subscribeUses d deserialized) (subscribe d deserialized).2
      ↔ SubscribesSound d members deserialized := by
  unfold SubscribesSound
  cases hsupport : d.typeCdrSupport with
  | false =>
      refine iff_of_false ?_ (by simp)
      unfold subscribeUses
      rw [hmembers]
      dsimp only
      rw [inits_of hinit, if_pos (by simp [hsupport])]
      exact not_once_of_leak (by simp)
  | true =>
      obtain ⟨hnone, hsome⟩ := subscribe_returns hmembers hsupport
      rw [subscribeUses_eq hmembers hinit hfini hsupport]
      rcases deserialized with e | _ | obj
      · exact iff_of_false (not_once_of_leak (by simp)) (by simp)
      · rw [hnone]
        dsimp only
        exact iff_of_true ⟨rfl, by decide, by simp⟩ ⟨rfl, trivial⟩
      · have hends := serialize_ends (hty obj rfl) (.new members.sizeOf)
        -- an encoder that gives up half way is no different from one that is done
        have hreturned : ∀ r, serializedStructToRos1 obj (.new members.sizeOf) members.members
            = .ok r → FinalisedOnce [.initFunction, .rmwDeserialize, .serializedStructToRos1,
              .finiFunction] (subscribe d (.ok (some obj))).2 := by
          intro r hr
          rw [hsome obj r hr]
          exact ⟨rfl, by decide, by simp⟩
        dsimp only
        cases hstop : firstStop (plan members.members) with
        | none =>
            rw [hstop] at hends
            obtain ⟨b, hr, -⟩ := hends
            rw [hr]
            exact iff_of_true (hreturned _ hr) ⟨rfl, trivial⟩
        | some why =>
            rw [hstop] at hends
            cases why with
            | refused =>
                obtain ⟨b, hr⟩ := hends
                rw [hr]
                exact iff_of_true (hreturned _ hr) ⟨rfl, trivial⟩
            | thrown =>
                obtain ⟨e, hr⟩ := hends
                rw [hr]
                exact iff_of_false (not_once_of_leak (by simp)) (by simp)
            | undefined =>
                obtain ⟨what, hr⟩ := hends
                rw [hr]
                exact iff_of_false (not_once_of_leak (by simp)) (by simp)

end Publish

/--
**When the message object is destroyed exactly once**, by payload and by type. `publish`
needs a payload that is decoded to its end and ROS calls that return; `subscribe` needs an
`rmw_deserialize` that returns, and if it has succeeded, a type whose encoding does not throw.
-/
theorem finalised_once_iff (env : RosEnv) (d : StreamDeserialization) (members : MessageMembers)
    (msgObj : MsgObject) (hmembers : d.members = some members)
    (hinit : members.initFunction = some msgObj) (hfini : members.finiFunction = true)
    (payload : List UInt8) (deserialized : Except StdException (Option MsgObject))
    (hty : ∀ obj, deserialized = .ok (some obj) → HasType members.members obj) :
    (FinalisedOnce (publishUses env d (ofBuffer payload)) (publish env d (ofBuffer payload)).2
        ↔ PublishesSound env d members msgObj payload)
      ∧ (FinalisedOnce (subscribeUses d deserialized) (subscribe d deserialized).2
        ↔ SubscribesSound d members deserialized) :=
  ⟨publish_finalises_iff hmembers hinit hfini payload,
    subscribe_finalises_iff hmembers hinit hfini deserialized hty⟩

/-- A `std_msgs/Int32` there and back. -/
theorem finalised_once_int32 :
    FinalisedOnce (publishUses (dataEnv .int32 4) ⟨some (dataType .int32 4), true⟩
        (ofBuffer [7, 0, 0, 0]))
      (publish (dataEnv .int32 4) ⟨some (dataType .int32 4), true⟩ (ofBuffer [7, 0, 0, 0])).2
    ∧ FinalisedOnce (subscribeUses ⟨some (dataType .int32 4), true⟩
        (.ok (some [[.raw [7, 0, 0, 0]]])))
      (subscribe ⟨some (dataType .int32 4), true⟩ (.ok (some [[.raw [7, 0, 0, 0]]]))).2 := by
  have hty : ∀ obj, (.ok (some [[.raw [7, 0, 0, 0]]]) : Except StdException (Option MsgObject))
      = .ok (some obj) → HasType (dataType .int32 4).members obj := by
    intro obj hobj
    obtain rfl := Option.some.inj (Except.ok.inj hobj)
    exact HasType.scalars [[7, 0, 0, 0]] rfl (by simp) rfl HasType.nil
  obtain ⟨hpublish, hsubscribe⟩ := finalised_once_iff (dataEnv .int32 4)
    ⟨some (dataType .int32 4), true⟩ _ _ rfl rfl rfl [7, 0, 0, 0] _ hty
  refine ⟨hpublish.mpr ⟨⟨[], by decide⟩, ?_⟩, hsubscribe.mpr ⟨rfl, trivial⟩⟩
  intro obj s _ _
  obtain ⟨r, hr⟩ := (dataEnv_noThrow .int32 4).rmwSerialize obj
  exact ⟨rfl, r, hr, fun _ _ => rfl⟩

/--
A `std_msgs/Int64`, which the decoder refuses, is destroyed, serialized and destroyed again;
a `std_msgs/Int32` that is too short is not destroyed at all.
-/
theorem finalised_twice_int64 :
    publishUses (dataEnv .int64 8) ⟨some (dataType .int64 8), true⟩
        (ofBuffer [7, 0, 0, 0, 0, 0, 0, 0])
      = [.initFunction, .deserializeRos1ToStruct, .finiFunction, .rmwSerialize, .finiFunction]
    ∧ ¬FinalisedOnce (publishUses (dataEnv .int64 8) ⟨some (dataType .int64 8), true⟩
          (ofBuffer [7, 0, 0, 0, 0, 0, 0, 0]))
        (publish (dataEnv .int64 8) ⟨some (dataType .int64 8), true⟩
          (ofBuffer [7, 0, 0, 0, 0, 0, 0, 0])).2
    ∧ publishUses (dataEnv .int32 4) ⟨some (dataType .int32 4), true⟩ (ofBuffer [7])
      = [.initFunction, .deserializeRos1ToStruct]
    ∧ ¬FinalisedOnce (publishUses (dataEnv .int32 4) ⟨some (dataType .int32 4), true⟩ (ofBuffer [7]))
        (publish (dataEnv .int32 4) ⟨some (dataType .int32 4), true⟩ (ofBuffer [7])).2 := by
  have htwice : publishUses (dataEnv .int64 8) ⟨some (dataType .int64 8), true⟩
      (ofBuffer [7, 0, 0, 0, 0, 0, 0, 0])
      = [.initFunction, .deserializeRos1ToStruct, .finiFunction, .rmwSerialize, .finiFunction] := rfl
  have hleak : publishUses (dataEnv .int32 4) ⟨some (dataType .int32 4), true⟩ (ofBuffer [7])
      = [.initFunction, .deserializeRos1ToStruct] := rfl
  refine ⟨htwice, ?_, hleak, ?_⟩
  · intro honce
    rw [htwice] at honce
    exact absurd honce.once (by decide)
  · rw [hleak]
    exact not_once_of_leak (by decide)

end RosserialServer
