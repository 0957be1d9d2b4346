import RosserialServer.Proof.Containment

/-!
# What reaches the topic

`publish` reports a failed parse and goes on with the object as far as it was filled. What
it hands to the topic is therefore the serialization of whatever the decoder left
(`publish_mem_iff`), decoded or not.
-/

namespace RosserialServer

open Outcome RosStream StreamDeserialization

/-- Destroying the object publishes nothing. -/
theorem finish_mem_iff (finiFunction alive : Bool) (calls : List RosCall) (cdr : List UInt8) :
    RosCall.publish cdr ∈ (finish finiFunction alive calls).1 ↔ RosCall.publish cdr ∈ calls := by
  unfold finish
  cases finiFunction with
  | false => exact Iff.rfl
  | true => cases alive <;> simp

theorem publishObject_mem_iff (env : RosEnv) (finiFunction alive : Bool) (msgObj : MsgObject)
    (cdr : List UInt8) :
    RosCall.publish cdr ∈ (publishObject env true finiFunction alive msgObj).1
      ↔ env.rmwSerializedMessageInit = true ∧ env.rmwSerialize msgObj = .ok (some cdr) := by
  unfold publishObject
  by_cases hinit : env.rmwSerializedMessageInit = true
  · rw [if_neg (by rw [hinit]; simp), if_neg (by simp)]
    cases hserialize : env.rmwSerialize msgObj with
    | error e => exact iff_of_false (by simp) (by simp)
    | ok result =>
        cases result with
        | none =>
            dsimp only
            rw [finish_mem_iff]
            exact iff_of_false (by simp) (by simp)
        | some bytes =>
            dsimp only
            cases env.publish bytes with
            | error e => simp [hinit, eq_comm]
            | ok u =>
                dsimp only
                rw [finish_mem_iff]
                simp [hinit, eq_comm]
  · rw [if_pos (by simpa using hinit), finish_mem_iff]
    exact iff_of_false (by simp) fun h => hinit h.1

/-- **What is published is the serialization of what the decoder left.** -/
theorem publish_mem_iff (env : RosEnv) (members : MessageMembers) (stream : RosStream)
    (cdr : List UInt8) :
    RosCall.publish cdr ∈ (publish env ⟨some members, true⟩ stream).1
      ↔ ∃ ok obj s, deserializeRos1ToStruct stream (members.initFunction.getD []) members.members
            = .ok (ok, obj, s)
          ∧ env.rmwSerializedMessageInit = true ∧ env.rmwSerialize obj = .ok (some cdr) := by
  have hinits : RosCall.publish cdr
      ∉ (if members.initFunction.isSome then [RosCall.initFunction] else []) := by
    split
    · simp
    · simp
  unfold publish
  dsimp only
  cases deserializeRos1ToStruct stream (members.initFunction.getD []) members.members with
  | error e =>
      refine iff_of_false hinits ?_
      rintro ⟨_, _, _, hc, _⟩
      exact absurd hc (by simp)
  | ok r =>
      obtain ⟨ok, obj, s⟩ := r
      have hfinis : RosCall.publish cdr
          ∉ (if (!ok && members.finiFunction) = true then [RosCall.finiFunction] else []) := by
        split
        · simp
        · simp
      have hobject := publishObject_mem_iff env members.finiFunction
        (ok || triviallyDestructible members.members) obj cdr
      dsimp only
      constructor
      · intro hmem
        rcases List.mem_append.mp hmem with hearly | hcall
        · rcases List.mem_append.mp hearly with hcall | hcall
          · exact absurd hcall hinits
          · exact absurd hcall hfinis
        · exact ⟨ok, obj, s, rfl, hobject.mp hcall⟩
      · rintro ⟨_, _, _, hrun, hserialized⟩
        obtain ⟨rfl, rfl, rfl⟩ : ok = _ ∧ obj = _ ∧ s = _ := by simpa using hrun
        exact List.mem_append_right _ (hobject.mpr hserialized)

/-- All that a publisher of the type publishes for the payload was decoded from it. -/
def OnlyDecoded (env : RosEnv) (topicInfo : TopicInfo) (members : MessageMembers)
    (payload : List UInt8) : Prop :=
  ∀ cdr, RosCall.publish cdr
      ∈ (SerialPublisher.handle env ⟨topicInfo, ⟨some members, true⟩⟩ (ofBuffer payload)).1 →
    ∃ obj s, deserializeRos1ToStruct (ofBuffer payload) (members.initFunction.getD [])
        members.members = .ok (true, obj, s)
      ∧ env.rmwSerialize obj = .ok (some cdr)

/-- Where the rmw calls succeed, a payload the decoder refuses is published all the same. -/
theorem rejected_published {env : RosEnv} (hinit : env.rmwSerializedMessageInit = true)
    (hserialize : ∀ obj, ∃ cdr, env.rmwSerialize obj = .ok (some cdr)) (topicInfo : TopicInfo)
    {members : MessageMembers} {payload : List UInt8}
    (h : scan (layout members.members) payload = .rejected) :
    ¬OnlyDecoded env topicInfo members payload := by
  intro honly
  have hagrees := deserialize_agrees (reading_ofBuffer payload)
    (members.initFunction.getD []) members.members
  rw [h] at hagrees
  obtain ⟨obj, s, hrun⟩ := hagrees
  obtain ⟨cdr, hcdr⟩ := hserialize obj
  have hpublished := (publish_mem_iff env members (ofBuffer payload) cdr).mpr
    ⟨false, obj, s, hrun, hinit, hcdr⟩
  obtain ⟨obj', s', hrun', -⟩ := honly cdr hpublished
  rw [hrun] at hrun'
  exact absurd hrun' (by simp)

/--
**Only decoded messages are published, whatever the ROS calls do, exactly for the payloads
that are not refused**: those the decoder reads to the end of the type, and those it throws on.
-/
theorem only_decoded_published_iff (topicInfo : TopicInfo) (members : MessageMembers)
    (payload : List UInt8) :
    (∀ env, OnlyDecoded env topicInfo members payload)
      ↔ scan (layout members.members) payload ≠ .rejected := by
  constructor
  · intro h hrejected
    let env : RosEnv := { dataEnv .boolean 1 with rmwSerialize := fun _ => .ok (some []) }
    have hinit : env.rmwSerializedMessageInit = true := rfl
    exact rejected_published hinit (fun _ => ⟨[], rfl⟩) topicInfo hrejected (h env)
  · intro h env cdr hmem
    obtain ⟨ok, obj, s, hrun, -, hcdr⟩ := (publish_mem_iff env members _ cdr).mp hmem
    have hagrees := deserialize_agrees (reading_ofBuffer payload)
      (members.initFunction.getD []) members.members
    cases hscan : scan (layout members.members) payload with
    | accepted rest =>
        rw [hscan, hrun] at hagrees
        obtain ⟨obj', s', hsame, -⟩ := hagrees
        obtain ⟨rfl, -, -⟩ : ok = true ∧ _ ∧ _ := by simpa using hsame
        exact ⟨obj, s, hrun, hcdr⟩
    | rejected => exact absurd hscan h
    | starved =>
        rw [hscan, hrun] at hagrees
        obtain ⟨e, hc⟩ := hagrees
        exact absurd hc (by simp)

/-- A payload for `std_msgs/Int64`, which the decoder does not support, is published as zero. -/
theorem only_decoded_published_int64 :
    ¬∀ (env : RosEnv) (topicInfo : TopicInfo) (members : MessageMembers) (payload : List UInt8),
      OnlyDecoded env topicInfo members payload := by
  intro h
  have hrun : deserializeRos1ToStruct (ofBuffer [7, 0, 0, 0, 0, 0, 0, 0])
      [[.raw (List.replicate 8 0)]] (dataType .int64 8).members
      = .ok (false, [[.raw (List.replicate 8 0)]], ofBuffer [7, 0, 0, 0, 0, 0, 0, 0]) := rfl
  have hzero := (publish_mem_iff (dataEnv .int64 8) (dataType .int64 8)
    (ofBuffer [7, 0, 0, 0, 0, 0, 0, 0]) ([0, 1, 0, 0] ++ List.replicate 8 0)).mpr
    ⟨false, _, _, hrun, rfl, rfl⟩
  obtain ⟨obj, s, hdecoded, -⟩ := h (dataEnv .int64 8) { topicId := 125 } (dataType .int64 8)
    [7, 0, 0, 0, 0, 0, 0, 0] _ hzero
  exact absurd (hdecoded.symm.trans hrun) (by simp)

end RosserialServer
