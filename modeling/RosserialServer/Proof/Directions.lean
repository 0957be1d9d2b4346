import RosserialServer.Proof.Codec

/-!
# The two directions

Whether some value of a type can be encoded, and whether some payload can be decoded by
it, are both read off the type: the plan has no stop (`encodable_iff`), and the layout has
no unsupported member (`decodable_supported`, `supported_decodable`). The decoder takes no
array but a fixed one of doubles, the encoder takes a fixed one of anything it knows, and
apart from arrays the two agree on every kind of member (`supported_iff`).
-/

namespace RosserialServer

open Bytes RosStream StreamDeserialization

/-- The encoder converts some value of the type. -/
def Encodable (members : List MessageMember) (b : WriteBuffer) : Prop :=
  ∃ obj b', HasType members obj ∧ serializedStructToRos1 obj b members = .ok (true, b')

/-- The decoder accepts some payload, into the object `init_function` has left. -/
def Decodable (members : List MessageMember) (msgObj : MsgObject) : Prop :=
  ∃ payload obj s, deserializeRos1ToStruct (ofBuffer payload) msgObj members = .ok (true, obj, s)

mutual

def memberDoubleArrays : MessageMember → Prop
  | ⟨_, typeId, array, subMembers⟩ =>
      match array with
      | .single => typeId = .message → DoubleArrays subMembers
      | .fixed size => 0 < size ∧ typeId = .double
      | .bounded _ => False
      | .unbounded => False

/-- Every array in the type, at any depth, is a fixed one of doubles, and not empty. -/
def DoubleArrays : List MessageMember → Prop
  | [] => True
  | member :: members => memberDoubleArrays member ∧ DoubleArrays members

end

theorem encodable_iff (members : List MessageMember) (b : WriteBuffer) :
    Encodable members b ↔ firstStop (plan members) = none := by
  constructor
  · rintro ⟨obj, b', hty, hok⟩
    have hends := serialize_ends hty b
    rw [hok] at hends
    cases hstop : firstStop (plan members) with
    | none => rfl
    | some why =>
        rw [hstop] at hends
        cases why with
        | refused =>
            obtain ⟨_, hr⟩ := hends
            exact absurd (Prod.mk.inj (Except.ok.inj hr)).1 (by simp)
        | thrown =>
            obtain ⟨_, hr⟩ := hends
            exact absurd hr (by simp)
        | undefined =>
            obtain ⟨_, hr⟩ := hends
            exact absurd hr (by simp)
  · intro hstop
    have hty := sample_hasType members
    obtain ⟨b', hok, -⟩ := serialize_ok hty hstop b
    exact ⟨_, b', hty, hok⟩

/-! ## Where the two agree -/

theorem not_isDoubles {typeId : TypeId} {array : ArraySpec} (ha : array ≠ .single)
    (hd : ¬IsDoubles typeId array) (name : String) (subMembers : List MessageMember) :
    ¬memberDoubleArrays ⟨name, typeId, array, subMembers⟩ := by
  unfold memberDoubleArrays
  cases array with
  | single => exact absurd rfl ha
  | fixed size => exact fun hc => hd ⟨size, rfl, hc⟩
  | bounded bound => exact id
  | unbounded => exact id

mutual

theorem member_supported_iff : ∀ member : MessageMember,
    Item.unsupported ∉ memberLayout member
      ↔ firstStop (memberPlan member) = none ∧ memberDoubleArrays member
  | ⟨name, typeId, array, subMembers⟩ => by
      by_cases ha : array = .single
      · subst ha
        unfold memberDoubleArrays
        cases hsize : scalarSize typeId with
        | some n =>
            rw [memberLayout_scalar hsize, memberPlan_scalar hsize]
            have hm : typeId ≠ .message := by
              rintro rfl
              exact absurd hsize (by simp [scalarSize])
            exact iff_of_true (by simp) ⟨rfl, fun hc => absurd hc hm⟩
        | none =>
            by_cases hs : typeId = .string
            · subst hs
              rw [memberLayout_string]
              exact iff_of_true (by simp) ⟨rfl, fun hc => absurd hc (by simp)⟩
            · by_cases hm : typeId = .message
              · subst hm
                rw [memberLayout_message, memberPlan_message, firstStop_seq]
                have hseq : Item.unsupported ∉
                    (if isStdHeader name subMembers then [Item.scalar 4] else []) := by
                  split <;> simp
                have hinner := supported_iff subMembers
                simp only [List.mem_append, hseq, false_or, hinner, true_implies]
              · rw [memberLayout_unsupported hsize hs hm]
                refine iff_of_false (by simp) ?_
                rintro ⟨hstop, -⟩
                unfold memberPlan at hstop
                rw [hsize] at hstop
                cases typeId with
                | string => exact hs rfl
                | message => exact hm rfl
                | _ => exact absurd hstop (by simp [firstStop])
      · by_cases hd : IsDoubles typeId array
        · obtain ⟨size, rfl, hpos, rfl⟩ := hd
          rw [memberLayout_doubles name subMembers hpos]
          exact iff_of_true (by simp [List.mem_replicate])
            ⟨doubles_noStop name subMembers hpos, hpos, rfl⟩
        · rw [memberLayout_array ha hd]
          exact iff_of_false (by simp) fun hc => not_isDoubles ha hd name subMembers hc.2

/-- **The decoder knows what the encoder knows, but for arrays.** -/
theorem supported_iff : ∀ members : List MessageMember,
    Item.unsupported ∉ layout members ↔ firstStop (plan members) = none ∧ DoubleArrays members
  | [] => iff_of_true (by simp [layout]) ⟨rfl, trivial⟩
  | member :: members => by
      have hfirst := member_supported_iff member
      have hrest := supported_iff members
      rw [layout, plan, firstStop_append, DoubleArrays, List.mem_append, not_or, hfirst, hrest,
        Option.or_eq_none_iff]
      constructor
      · rintro ⟨⟨h₁, h₂⟩, h₃, h₄⟩
        exact ⟨⟨h₁, h₃⟩, h₂, h₄⟩
      · rintro ⟨⟨h₁, h₃⟩, h₂, h₄⟩
        exact ⟨⟨h₁, h₂⟩, h₃, h₄⟩

end

/-! ## Which types can be received -/

/-- The least an item takes: a string needs a byte behind its length. -/
def Item.least : Item → List Token
  | .scalar n => [.plain (List.replicate n 0)]
  | .text => [.text [0]]
  | .unsupported => []

/-- The shortest payload of a type. -/
def leastPayload (members : List MessageMember) : List UInt8 :=
  spell ((layout members).flatMap Item.least)

theorem least_fills {items : List Item} (h : Item.unsupported ∉ items) :
    List.Forall₂ Token.Fills items (items.flatMap Item.least) := by
  induction items with
  | nil => exact List.Forall₂.nil
  | cons item items ih =>
      rw [List.mem_cons, not_or] at h
      have hrest := ih h.2
      cases item with
      | scalar n => exact List.Forall₂.cons List.length_replicate hrest
      | text => exact List.Forall₂.cons (Nat.succ_le_of_lt (by simp)) hrest
      | unsupported => exact absurd rfl h.1

theorem least_no_empty (items : List Item) : Token.text [] ∉ items.flatMap Item.least := by
  intro hmem
  obtain ⟨item, -, hmem⟩ := List.mem_flatMap.mp hmem
  cases item <;> simp [Item.least] at hmem

/-- A layout by which bytes are accepted has no member the decoder refuses. -/
theorem supported_of_scan {items : List Item} {bytes rest : List UInt8}
    (h : scan items bytes = .accepted rest) : Item.unsupported ∉ items := by
  induction items generalizing bytes with
  | nil => simp
  | cons item items ih =>
      cases item with
      | scalar n =>
          unfold scan at h
          split at h
          · simpa using ih h
          · exact absurd h (by simp)
      | text =>
          unfold scan at h
          split at h
          · exact absurd h (by simp)
          · split at h
            · exact absurd h (by simp)
            · split at h
              · exact absurd h (by simp)
              · simpa using ih h
      | unsupported => exact absurd h (by simp [scan])

theorem decodable_supported {members : List MessageMember} {msgObj : MsgObject}
    (h : Decodable members msgObj) : Item.unsupported ∉ layout members := by
  obtain ⟨payload, obj, s, hrun⟩ := h
  have hagrees := deserialize_agrees (reading_ofBuffer payload) msgObj members
  rw [hrun] at hagrees
  cases hscan : scan (layout members) payload with
  | accepted rest => exact supported_of_scan hscan
  | rejected =>
      rw [hscan] at hagrees
      obtain ⟨_, _, hr⟩ := hagrees
      exact absurd (Prod.mk.inj (Except.ok.inj hr)).1 (by simp)
  | starved =>
      rw [hscan] at hagrees
      obtain ⟨_, hr⟩ := hagrees
      exact absurd hr (by simp)

theorem supported_decodable {members : List MessageMember}
    (h : Item.unsupported ∉ layout members) (hlen : (leastPayload members).length < 2 ^ 31)
    (msgObj : MsgObject) : Decodable members msgObj := by
  have hread : Readable ((layout members).flatMap Item.least) [] :=
    (readable_iff (by rw [List.append_nil]; exact hlen)).mpr (least_no_empty _)
  have hscan := (scan_fills (least_fills h) []).1 hread
  have hagrees := deserialize_agrees (reading_ofBuffer (leastPayload members ++ [])) msgObj members
  unfold leastPayload at hagrees
  rw [hscan] at hagrees
  obtain ⟨obj, s, hrun, -⟩ := hagrees
  exact ⟨_, obj, s, hrun⟩

/--
**Which types both directions support**: what can be received can be sent, and what can be
sent can be received if its arrays are fixed arrays of doubles and its shortest payload
has a length that is an `int`.
-/
theorem decodable_encodable (members : List MessageMember) (msgObj : MsgObject)
    (b : WriteBuffer) :
    (Decodable members msgObj → Encodable members b ∧ DoubleArrays members)
      ∧ ((leastPayload members).length < 2 ^ 31 → Encodable members b → DoubleArrays members →
        Decodable members msgObj) := by
  rw [encodable_iff]
  constructor
  · intro h
    exact (supported_iff members).mp (decodable_supported h)
  · intro hlen hstop harrays
    exact supported_decodable ((supported_iff members).mpr ⟨hstop, harrays⟩) hlen msgObj

/-- A fixed array of integers can be sent and never received. -/
theorem ints_one_way :
    Encodable [⟨"data", .int32, .fixed 2, []⟩] (.new 8)
      ∧ ∀ msgObj, ¬Decodable [⟨"data", .int32, .fixed 2, []⟩] msgObj := by
  refine ⟨(encodable_iff _ _).mpr rfl, fun msgObj h => ?_⟩
  exact decodable_supported h (by simp [layout, memberLayout])

end RosserialServer
