import RosserialServer.Lib.Outcome
import RosserialServer.Proof.BufferWrites
import RosserialServer.RosAdapter.PackedFormat

/-!
# What the encoder does with a value

How `serialized_struct_to_ros1` ends is decided by the type alone, and what it has written
by then is a function of the value. `plan` lists what it meets on its way through a type:
values it writes, the `seq` of what it takes for a header, sequences of messages it passes
over, and the members it stops at. `emits` is what it writes for a value, and
`serialize_ends` says that this is all there is.
-/

namespace RosserialServer

open Bytes Outcome StreamDeserialization

/-- The ways the encoder stops before the end of a type. -/
inductive Stop where
  | refused
  | thrown
  | undefined
  deriving DecidableEq, Repr

/-- What the encoder meets in a type. -/
inductive Step where
  | written
  | seq
  /-- A sequence of messages, whose elements it does not look at. -/
  | skipped
  | stop (why : Stop)
  deriving DecidableEq, Repr

/-- Where the encoder stops, if it does. -/
def firstStop (steps : List Step) : Option Stop :=
  steps.findSome? fun
    | .stop why => some why
    | _ => none

@[simp] theorem firstStop_nil : firstStop [] = none := rfl

theorem firstStop_append (xs ys : List Step) :
    firstStop (xs ++ ys) = (firstStop xs).or (firstStop ys) := List.findSome?_append

theorem firstStop_cons_none {step : Step} {steps : List Step}
    (h : firstStop (step :: steps) = none) : ∀ why, step ≠ .stop why := by
  rintro why rfl
  exact absurd h (by simp [firstStop])

theorem firstStop_append_none {xs ys : List Step} (h : firstStop (xs ++ ys) = none) :
    firstStop xs = none ∧ firstStop ys = none := by
  rw [firstStop_append] at h
  exact Option.or_eq_none_iff.mp h

/-- The `seq` the encoder writes in front of a member. -/
def writesSeq (member : MessageMember) : Bool :=
  member.typeId == .message && member.array.arraySize == 0
    && isStdHeader member.name member.members

/-- What the encoder meets at scalars and strings. -/
def flatStep (array : ArraySpec) : Step :=
  if array.isArray && (array.isUpperBound || array.arraySize == 0) then .stop .thrown else .written

mutual

def memberPlan : MessageMember → List Step
  | ⟨name, typeId, array, subMembers⟩ =>
      match scalarSize typeId with
      | some _ => [flatStep array]
      | none =>
          match typeId with
          | .string => [flatStep array]
          | .message =>
              (if array.arraySize == 0 && isStdHeader name subMembers then [.seq] else [])
                ++ match array with
                  | .single => plan subMembers
                  | .fixed size => if 0 < size then plan subMembers else []
                  | .bounded bound => if 0 < bound then [.stop .undefined] else [.skipped]
                  | .unbounded => [.skipped]
          | _ => [.stop .refused]

/-- What the encoder meets in a type, in its order. -/
def plan : List MessageMember → List Step
  | [] => []
  | member :: members => memberPlan member ++ plan members

end

/-- The elements of a message member that the loop over `array_size` reaches. -/
def reached (array : ArraySpec) (slot : Slot) : Slot :=
  match array with
  | .single => slot
  | .fixed _ => slot
  | .bounded _ => []
  | .unbounded => []

mutual

def memberEmits (slot : Slot) : MessageMember → List UInt8
  | ⟨name, typeId, array, subMembers⟩ =>
      match typeId with
      | .string => slot.flatMap fun e => leBytes 4 e.text.length ++ e.text
      | .message =>
          (if array.arraySize == 0 && isStdHeader name subMembers then leBytes 4 0 else [])
            ++ (reached array slot).flatMap fun e => emits e.fields subMembers
      | _ => slot.bytes

/-- What the encoder writes for a value of a type it does not stop in. -/
def emits (msgObj : MsgObject) : List MessageMember → List UInt8
  | [] => []
  | member :: members => memberEmits (msgObj.headD []) member ++ emits msgObj.tail members

end

/-! ## How a conversion ends -/

/-- The encoder's result is the one its plan calls for. -/
def Ends (stop : Option Stop) (bytes : List UInt8) (b : WriteBuffer)
    (r : Except Failure (Bool × WriteBuffer)) : Prop :=
  match stop with
  | none => ∃ b', r = .ok (true, b') ∧ b.Wrote bytes b'
  | some .refused => ∃ b', r = .ok (false, b')
  | some .thrown => ∃ e, r = .error (.thrown e)
  | some .undefined => ∃ what, r = .error (.undefined what)

/-- The steps of a conversion go on while nothing stops them. -/
theorem Ends.andThen {stop stop' : Option Stop} {xs ys : List UInt8} {b : WriteBuffer}
    {r : Except Failure (Bool × WriteBuffer)}
    {next : WriteBuffer → Except Failure (Bool × WriteBuffer)} (h : Ends stop xs b r)
    (hnext : ∀ b', Ends stop' ys b' (next b')) :
    Ends (stop.or stop') (xs ++ ys) b
      (r >>= fun x => if x.1 then next x.2 else .ok (false, x.2)) := by
  cases stop with
  | none =>
      obtain ⟨b₁, rfl, hwrote⟩ := h
      have hn := hnext b₁
      rw [Option.none_or, ok_bind]
      show Ends stop' (xs ++ ys) b (next b₁)
      cases stop' with
      | none =>
          obtain ⟨b₂, hr, hwrote'⟩ := hn
          exact ⟨b₂, hr, hwrote.trans hwrote'⟩
      | some why => cases why <;> exact hn
  | some why =>
      cases why with
      | refused =>
          obtain ⟨b', rfl⟩ := h
          exact ⟨b', rfl⟩
      | thrown =>
          obtain ⟨e, rfl⟩ := h
          exact ⟨e, rfl⟩
      | undefined =>
          obtain ⟨what, rfl⟩ := h
          exact ⟨what, rfl⟩

/-- A loop over elements stops where the first of them does. -/
theorem writeEach_ends {write : Elem → WriteBuffer → Except Failure (Bool × WriteBuffer)}
    {stop : Option Stop} {bytes : Elem → List UInt8} {es : List Elem}
    (h : ∀ e ∈ es, ∀ b, Ends stop (bytes e) b (write e b)) (hne : es ≠ [] ∨ stop = none)
    (b : WriteBuffer) : Ends stop (es.flatMap bytes) b (writeEach write es b) := by
  induction es generalizing b with
  | nil =>
      rcases hne with hne | rfl
      · exact absurd rfl hne
      · exact ⟨b, rfl, WriteBuffer.Wrote.refl b⟩
  | cons e es ih =>
      rw [List.flatMap_cons]
      unfold writeEach
      have hfirst := h e (by simp) b
      cases stop with
      | none =>
          exact hfirst.andThen (ih (fun x hx => h x (by simp [hx])) (Or.inr rfl))
      | some why =>
          cases why with
          | refused =>
              obtain ⟨b', hr⟩ := hfirst
              rw [hr]
              exact ⟨b', rfl⟩
          | thrown =>
              obtain ⟨err, hr⟩ := hfirst
              rw [hr]
              exact ⟨err, rfl⟩
          | undefined =>
              obtain ⟨what, hr⟩ := hfirst
              rw [hr]
              exact ⟨what, rfl⟩

theorem Ends.after {stop : Option Stop} {xs ys : List UInt8} {b b' : WriteBuffer}
    {r : Except Failure (Bool × WriteBuffer)} (hwrote : b.Wrote xs b') (h : Ends stop ys b' r) :
    Ends stop (xs ++ ys) b r := by
  cases stop with
  | none =>
      obtain ⟨b'', hr, hwrote'⟩ := h
      exact ⟨b'', hr, hwrote.trans hwrote'⟩
  | some why => cases why <;> exact h

/-! ## Members -/

theorem writeText_ends (e : Elem) (b : WriteBuffer) :
    Ends none (leBytes 4 e.text.length ++ e.text) b (writeText e b) := by
  have hlen : leBytes 4 (UInt32.ofNat e.text.length).toNat = leBytes 4 e.text.length := by
    rw [UInt32.toNat_ofNat']
    exact leBytes_mod 4 e.text.length
  obtain ⟨b₁, hwrite₁, hwrote₁⟩ := b.bufferWrite_all (length_leBytes 4 e.text.length)
  obtain ⟨b₂, hwrite₂, hwrote₂⟩ := b₁.bufferWrite_all (rfl : e.text.length = e.text.length)
  refine ⟨b₂, ?_, hwrote₁.trans hwrote₂⟩
  unfold writeText
  dsimp only
  rw [hlen, hwrite₁]
  show ((b₁.bufferWrite (some e.text) e.text.length).mapError Failure.thrown >>= _) = _
  rw [hwrite₂]
  rfl

theorem slot_bytes_raws (raws : List (List UInt8)) :
    Slot.bytes (raws.map .raw) = raws.flatten := by
  induction raws with
  | nil => rfl
  | cons raw raws ih => rw [List.flatten_cons, ← ih]; rfl

theorem length_flatten {n : Nat} {raws : List (List UInt8)} (h : ∀ raw ∈ raws, raw.length = n) :
    raws.flatten.length = raws.length * n := by
  induction raws with
  | nil => simp
  | cons raw raws ih =>
      rw [List.flatten_cons, List.length_append, h raw (by simp), ih fun x hx => h x (by simp [hx]),
        List.length_cons, Nat.succ_mul]
      omega

/-- An array of scalars or strings that is not refused has as many elements as it says. -/
theorem flatStep_written {array : ArraySpec} {n : Nat} (h : flatStep array = .written)
    (hn : array.Fits n) : (if array.isArray then array.arraySize else 1) = n := by
  cases array with
  | single => exact hn.symm
  | fixed size => exact hn.symm
  | bounded bound => exact absurd h (by simp [flatStep, ArraySpec.isArray, ArraySpec.isUpperBound])
  | unbounded =>
      exact absurd h (by simp [flatStep, ArraySpec.isArray, ArraySpec.arraySize])

theorem flatStep_fixed {size : Nat} (h : 0 < size) : flatStep (.fixed size) = .written := by
  have hne : (size == 0) = false := by
    rw [beq_eq_false_iff_ne]
    omega
  simp [flatStep, ArraySpec.isArray, ArraySpec.isUpperBound, ArraySpec.arraySize, hne]

/-- The two endings of an array of scalars or strings, as tests the code makes. -/
theorem flatStep_cases (array : ArraySpec) :
    (flatStep array = .written
        ∧ (array.isArray && (array.isUpperBound || array.arraySize == 0)) = false)
      ∨ (flatStep array = .stop .thrown
        ∧ (array.isArray && (array.isUpperBound || array.arraySize == 0)) = true) := by
  unfold flatStep
  cases h : array.isArray && (array.isUpperBound || array.arraySize == 0) with
  | false => exact Or.inl ⟨rfl, rfl⟩
  | true => exact Or.inr ⟨rfl, rfl⟩

/-- Scalars and arrays of scalars are copied in one piece. -/
theorem scalars_ends {name : String} {typeId : TypeId} {array : ArraySpec}
    {subMembers : List MessageMember} {n : Nat} (h : scalarSize typeId = some n)
    {raws : List (List UInt8)} (hsize : ∀ raw ∈ raws, raw.length = n)
    (hcount : array.Fits raws.length) (b : WriteBuffer) :
    Ends (firstStop [flatStep array]) (Slot.bytes (raws.map .raw)) b
      (serializeMember (raws.map .raw) b ⟨name, typeId, array, subMembers⟩) := by
  unfold serializeMember
  rw [h]
  dsimp only
  unfold WriteBuffer.readAndMvPtr
  rcases flatStep_cases array with ⟨hstep, htest⟩ | ⟨hstep, htest⟩
  · obtain ⟨b', hwrite, hwrote⟩ := b.bufferWrite_all (length_flatten hsize)
    rw [hstep, htest, if_neg (by simp), slot_bytes_raws]
    dsimp only
    rw [flatStep_written hstep hcount, hwrite]
    exact ⟨b', rfl, hwrote⟩
  · rw [hstep, htest, if_pos rfl]
    exact ⟨_, rfl⟩

/-- The elements of a member whose array is not refused are those its slot holds. -/
theorem elements_all {array : ArraySpec} {slot : Slot}
    (h : flatStep array = .written) (hcount : array.Fits slot.length) :
    elements slot array = .ok slot := by
  unfold elements
  cases array with
  | single =>
      obtain rfl | ⟨e, rfl⟩ : slot = [] ∨ ∃ e, slot = [e] := by
        have hone : slot.length = 1 := hcount
        exact Or.inr (List.length_eq_one_iff.mp hone)
      · exact absurd hcount (by simp [ArraySpec.Fits])
      · rfl
  | fixed size =>
      obtain rfl : slot.length = size := hcount
      simp [ArraySpec.isArray, ArraySpec.arraySize, ArraySpec.isUpperBound]
  | bounded bound =>
      exact absurd h (by simp [flatStep, ArraySpec.isArray, ArraySpec.isUpperBound])
  | unbounded =>
      exact absurd h (by simp [flatStep, ArraySpec.isArray, ArraySpec.arraySize])

/-- The loop over `array_size` reaches no element of a sequence. -/
theorem elements_unbounded (slot : Slot) : elements slot .unbounded = .ok [] := by
  unfold elements
  simp [ArraySpec.isArray, ArraySpec.isUpperBound, ArraySpec.arraySize]

theorem texts_ends (name : String) {array : ArraySpec} (subMembers : List MessageMember)
    {slot : Slot} (hcount : array.Fits slot.length) (b : WriteBuffer) :
    Ends (firstStop [flatStep array])
      (slot.flatMap fun e => leBytes 4 e.text.length ++ e.text) b
      (serializeMember slot b ⟨name, .string, array, subMembers⟩) := by
  unfold serializeMember
  show Ends _ _ b (if (array.isArray && (array.isUpperBound || array.arraySize == 0)) = true then _
    else _)
  rcases flatStep_cases array with ⟨hstep, htest⟩ | ⟨hstep, htest⟩
  · rw [htest, if_neg (by simp), elements_all hstep hcount, hstep]
    exact writeEach_ends (fun e _ b => writeText_ends e b) (Or.inr rfl) b
  · rw [htest, if_pos rfl, hstep]
    exact ⟨_, rfl⟩

theorem writeSeq_ok (b : WriteBuffer) (name : String) (array : ArraySpec)
    (subMembers : List MessageMember) :
    ∃ b', writeSeq b name array subMembers = .ok b'
      ∧ b.Wrote (if array.arraySize == 0 && isStdHeader name subMembers then leBytes 4 0 else [])
        b' := by
  unfold writeSeq
  cases array.arraySize == 0 && isStdHeader name subMembers with
  | false => exact ⟨b, rfl, WriteBuffer.Wrote.refl b⟩
  | true =>
      obtain ⟨b', hwrite, hwrote⟩ := b.bufferWrite_all (length_leBytes 4 0)
      rw [if_pos rfl, if_pos rfl, hwrite]
      exact ⟨b', rfl, hwrote⟩

theorem firstStop_seq (c : Bool) (steps : List Step) :
    firstStop ((if c then [.seq] else []) ++ steps) = firstStop steps := by
  cases c <;> rfl

theorem memberPlan_message (name : String) (array : ArraySpec) (subMembers : List MessageMember) :
    memberPlan ⟨name, .message, array, subMembers⟩
      = (if array.arraySize == 0 && isStdHeader name subMembers then [.seq] else [])
        ++ match array with
          | .single => plan subMembers
          | .fixed size => if 0 < size then plan subMembers else []
          | .bounded bound => if 0 < bound then [.stop .undefined] else [.skipped]
          | .unbounded => [.skipped] := by
  unfold memberPlan
  rfl

theorem memberEmits_message (name : String) (array : ArraySpec) (subMembers : List MessageMember)
    (slot : Slot) :
    memberEmits slot ⟨name, .message, array, subMembers⟩
      = (if array.arraySize == 0 && isStdHeader name subMembers then leBytes 4 0 else [])
        ++ (reached array slot).flatMap fun e => emits e.fields subMembers := by
  unfold memberEmits
  rfl

theorem memberEmits_texts (name : String) (array : ArraySpec) (subMembers : List MessageMember)
    (texts : List (List UInt8)) :
    memberEmits (texts.map .str) ⟨name, .string, array, subMembers⟩
      = texts.flatMap fun bs => leBytes 4 bs.length ++ bs := by
  unfold memberEmits
  exact List.flatMap_map ..

theorem memberEmits_messages (name : String) (array : ArraySpec)
    (subMembers : List MessageMember) (objs : List MsgObject) (h : reached array = id) :
    memberEmits (objs.map .msg) ⟨name, .message, array, subMembers⟩
      = (if array.arraySize == 0 && isStdHeader name subMembers then leBytes 4 0 else [])
        ++ objs.flatMap fun fields => emits fields subMembers := by
  rw [memberEmits_message, h, id, List.flatMap_map]
  rfl

/-- A message member: the `seq`, and then the elements the loop reaches. -/
theorem messages_ends (name : String) {array : ArraySpec} {subMembers : List MessageMember}
    {slot : Slot} (hcount : array.Fits slot.length)
    (h : ∀ e ∈ slot, ∀ b, Ends (firstStop (plan subMembers)) (emits e.fields subMembers) b
      (serializedStructToRos1 e.fields b subMembers)) (b : WriteBuffer) :
    Ends (firstStop (memberPlan ⟨name, .message, array, subMembers⟩))
      (memberEmits slot ⟨name, .message, array, subMembers⟩) b
      (serializeMember slot b ⟨name, .message, array, subMembers⟩) := by
  obtain ⟨b₁, hseq, hwrote⟩ := writeSeq_ok b name array subMembers
  rw [memberPlan_message, memberEmits_message, firstStop_seq]
  unfold serializeMember
  dsimp only [scalarSize]
  show Ends _ _ b (writeSeq b name array subMembers >>= _)
  rw [hseq, ok_bind]
  refine Ends.after hwrote ?_
  -- the elements come next, as far as the loop over `array_size` goes
  cases array with
  | single =>
      have hne : slot ≠ [] := by
        rintro rfl
        exact absurd hcount (by simp [ArraySpec.Fits])
      rw [elements_all rfl hcount]
      exact writeEach_ends h (Or.inl hne) b₁
  | fixed size =>
      dsimp only
      by_cases hpos : 0 < size
      · have hne : slot ≠ [] := by
          rintro rfl
          obtain rfl : 0 = size := hcount
          exact absurd hpos (by simp)
        rw [if_pos hpos, elements_all (flatStep_fixed hpos) hcount]
        exact writeEach_ends h (Or.inl hne) b₁
      · obtain rfl : size = 0 := by omega
        obtain rfl : slot = [] := List.eq_nil_of_length_eq_zero hcount
        exact ⟨b₁, rfl, WriteBuffer.Wrote.refl b₁⟩
  | bounded bound =>
      dsimp only
      by_cases hpos : 0 < bound
      · rw [if_pos hpos]
        refine ⟨"a bounded sequence is not an array of its elements", ?_⟩
        unfold elements
        simp only [ArraySpec.isArray, ArraySpec.isUpperBound, ArraySpec.arraySize, hpos, if_true,
          Bool.true_and, decide_true]
        rfl
      · obtain rfl : bound = 0 := by omega
        obtain rfl : slot = [] := List.eq_nil_of_length_eq_zero (Nat.le_zero.mp hcount)
        exact ⟨b₁, rfl, WriteBuffer.Wrote.refl b₁⟩
  | unbounded =>
      rw [elements_unbounded]
      exact ⟨b₁, rfl, WriteBuffer.Wrote.refl b₁⟩

/-! ## Whole types -/

theorem memberPlan_scalar {name : String} {typeId : TypeId} {array : ArraySpec}
    {subMembers : List MessageMember} {n : Nat} (h : scalarSize typeId = some n) :
    memberPlan ⟨name, typeId, array, subMembers⟩ = [flatStep array] := by
  unfold memberPlan
  rw [h]

theorem memberEmits_scalar {name : String} {typeId : TypeId} {array : ArraySpec}
    {subMembers : List MessageMember} {n : Nat} (h : scalarSize typeId = some n) (slot : Slot) :
    memberEmits slot ⟨name, typeId, array, subMembers⟩ = slot.bytes := by
  unfold memberEmits
  cases typeId with
  | string => exact absurd h (by simp [scalarSize])
  | message => exact absurd h (by simp [scalarSize])
  | _ => rfl

/-- A member of a kind the encoder does not know. -/
theorem refused_ends {name : String} {typeId : TypeId} {array : ArraySpec}
    {subMembers : List MessageMember} (h : scalarSize typeId = none) (hs : typeId ≠ .string)
    (hm : typeId ≠ .message) (slot : Slot) (b : WriteBuffer) :
    Ends (firstStop (memberPlan ⟨name, typeId, array, subMembers⟩))
      (memberEmits slot ⟨name, typeId, array, subMembers⟩) b
      (serializeMember slot b ⟨name, typeId, array, subMembers⟩) := by
  unfold memberPlan serializeMember
  rw [h]
  cases typeId with
  | string => exact absurd rfl hs
  | message => exact absurd rfl hm
  | _ => exact ⟨b, rfl⟩

theorem emits_cons (slot : Slot) (obj : MsgObject) (member : MessageMember)
    (members : List MessageMember) :
    emits (slot :: obj) (member :: members) = memberEmits slot member ++ emits obj members := by
  rw [emits]
  rfl

theorem noStop_cons {member : MessageMember} {members : List MessageMember}
    (h : firstStop (memberPlan member) = none) (hrest : firstStop (plan members) = none) :
    firstStop (plan (member :: members)) = none := by
  rw [plan, firstStop_append, h, hrest]
  rfl

theorem message_noStop (name : String) {subMembers : List MessageMember}
    (h : firstStop (plan subMembers) = none) :
    firstStop (memberPlan ⟨name, .message, .single, subMembers⟩) = none := by
  rw [memberPlan_message, firstStop_seq]
  exact h

theorem doubles_noStop (name : String) (subMembers : List MessageMember) {size : Nat}
    (h : 0 < size) : firstStop (memberPlan ⟨name, .double, .fixed size, subMembers⟩) = none := by
  rw [memberPlan_scalar rfl, flatStep_fixed h]
  rfl

theorem serialize_cons_ends {slot : Slot} {obj : MsgObject} {member : MessageMember}
    {members : List MessageMember} {b : WriteBuffer}
    (hslot : Ends (firstStop (memberPlan member)) (memberEmits slot member) b
      (serializeMember slot b member))
    (hrest : ∀ b, Ends (firstStop (plan members)) (emits obj members) b
      (serializedStructToRos1 obj b members)) :
    Ends (firstStop (plan (member :: members))) (emits (slot :: obj) (member :: members)) b
      (serializedStructToRos1 (slot :: obj) b (member :: members)) := by
  rw [plan, firstStop_append, emits, serializedStructToRos1]
  exact hslot.andThen hrest

/-- **How the encoder ends is decided by the type, and what it writes by the value.** -/
theorem serialize_ends {members : List MessageMember} {obj : MsgObject} (h : HasType members obj)
    (b : WriteBuffer) :
    Ends (firstStop (plan members)) (emits obj members) b
      (serializedStructToRos1 obj b members) := by
  induction h generalizing b with
  | nil => exact ⟨b, rfl, WriteBuffer.Wrote.refl b⟩
  | @scalars name typeId array subMembers members obj n raws size each count rest ih =>
      refine serialize_cons_ends ?_ ih
      cases hscalar : scalarSize typeId with
      | some m =>
          obtain rfl : n = m := by
            rw [typeSize_of_scalarSize hscalar] at size
            exact (Option.some.inj size).symm
          rw [memberPlan_scalar hscalar, memberEmits_scalar hscalar]
          exact scalars_ends hscalar each count b
      | none =>
          refine refused_ends hscalar ?_ ?_ _ b
          · rintro rfl
            exact absurd size (by simp [typeSize])
          · rintro rfl
            exact absurd size (by simp [typeSize])
  | @texts name typeId array subMembers members obj texts kind count rest ih =>
      refine serialize_cons_ends ?_ ih
      rcases kind with rfl | rfl
      · rw [memberEmits]
        exact texts_ends name subMembers (by rwa [List.length_map]) b
      · exact refused_ends rfl (by simp) (by simp) _ b
  | @messages name array subMembers members obj objs inner count rest ihInner ih =>
      refine serialize_cons_ends ?_ ih
      refine messages_ends name (by rwa [List.length_map]) ?_ b
      intro e he b
      obtain ⟨fields, hfields, rfl⟩ := List.mem_map.mp he
      exact ihInner fields hfields b

/-- In a type the encoder does not stop in, every value is written. -/
theorem serialize_ok {members : List MessageMember} {obj : MsgObject} (h : HasType members obj)
    (hstop : firstStop (plan members) = none) (b : WriteBuffer) :
    ∃ b', serializedStructToRos1 obj b members = .ok (true, b')
      ∧ b.Wrote (emits obj members) b' := by
  have hends := serialize_ends h b
  rwa [hstop] at hends

end RosserialServer
