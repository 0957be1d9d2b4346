import RosserialServer.Proof.Encoder

/-!
# When the encoding is the packed one

What the encoder writes differs from the packed encoding in two ways only. It leaves out
sequences of messages, their elements and their count, and it puts a `seq` in front of
what it takes for a header. Where the plan of a type has neither, it writes the packed
encoding (`emits_eq_packed`); where it has one of them, the sample value of the type
comes out wrong.
-/

namespace RosserialServer

open Bytes StreamDeserialization

/-! ## Without gaps -/

/-- A member without a stop whose elements are plain has no count in front of them. -/
theorem countBytes_written {array : ArraySpec} (h : firstStop [flatStep array] = none) (n : Nat) :
    countBytes array n = [] := by
  have hno := firstStop_cons_none h
  cases array with
  | single => rfl
  | fixed size => rfl
  | bounded bound =>
      exact absurd rfl (hno .thrown)
  | unbounded => exact absurd rfl (hno .thrown)

theorem packed_cons (seqs : MessageMember → Bool) (slot : Slot) (obj : MsgObject)
    (member : MessageMember) (members : List MessageMember) :
    packed seqs (slot :: obj) (member :: members)
      = memberPacked seqs slot member ++ packed seqs obj members := by
  rw [packed]
  rfl

theorem memberPacked_scalars (seqs : MessageMember → Bool) (name : String) (typeId : TypeId)
    (array : ArraySpec) (subMembers : List MessageMember) (raws : List (List UInt8)) :
    memberPacked seqs (raws.map .raw) ⟨name, typeId, array, subMembers⟩
      = (if seqs ⟨name, typeId, array, subMembers⟩ then leBytes 4 0 else [])
        ++ countBytes array raws.length ++ raws.flatten := by
  rw [memberPacked, List.length_map, List.flatMap_map]
  show _ ++ raws.flatMap id = _
  rw [List.flatMap_id]

theorem memberPacked_texts (seqs : MessageMember → Bool) (name : String) (typeId : TypeId)
    (array : ArraySpec) (subMembers : List MessageMember) (texts : List (List UInt8)) :
    memberPacked seqs (texts.map .str) ⟨name, typeId, array, subMembers⟩
      = (if seqs ⟨name, typeId, array, subMembers⟩ then leBytes 4 0 else [])
        ++ countBytes array texts.length
        ++ texts.flatMap fun bs => leBytes 4 bs.length ++ bs := by
  rw [memberPacked, List.length_map, List.flatMap_map]

theorem memberPacked_messages (seqs : MessageMember → Bool) (name : String) (typeId : TypeId)
    (array : ArraySpec) (subMembers : List MessageMember) (objs : List MsgObject) :
    memberPacked seqs (objs.map .msg) ⟨name, typeId, array, subMembers⟩
      = (if seqs ⟨name, typeId, array, subMembers⟩ then leBytes 4 0 else [])
        ++ countBytes array objs.length
        ++ objs.flatMap fun fields => packed seqs fields subMembers := by
  rw [memberPacked, List.length_map, List.flatMap_map]

theorem not_writesSeq {name : String} {typeId : TypeId} {array : ArraySpec}
    {subMembers : List MessageMember} (h : typeId ≠ .message) :
    writesSeq ⟨name, typeId, array, subMembers⟩ = false := by
  unfold writesSeq
  rw [beq_false_of_ne h]
  rfl

theorem writesSeq_message (name : String) (array : ArraySpec) (subMembers : List MessageMember) :
    writesSeq ⟨name, .message, array, subMembers⟩
      = (array.arraySize == 0 && isStdHeader name subMembers) := rfl

theorem flatStep_of_noStop {array : ArraySpec} (h : firstStop [flatStep array] = none) :
    flatStep array = .written := by
  rcases flatStep_cases array with ⟨hstep, -⟩ | ⟨hstep, -⟩
  · exact hstep
  · rw [hstep] at h
    exact absurd rfl (firstStop_cons_none h .thrown)

/-- Scalars the encoder does not stop at are written as they are packed. -/
theorem scalars_written {seqs : MessageMember → Bool} {name : String} {typeId : TypeId}
    {array : ArraySpec} {subMembers : List MessageMember} {n : Nat}
    (hsize : typeSize typeId = some n) (hseqs : seqs ⟨name, typeId, array, subMembers⟩ = false)
    (hstop : firstStop (memberPlan ⟨name, typeId, array, subMembers⟩) = none)
    (raws : List (List UInt8)) :
    memberPlan ⟨name, typeId, array, subMembers⟩ = [.written]
      ∧ memberEmits (raws.map .raw) ⟨name, typeId, array, subMembers⟩
        = memberPacked seqs (raws.map .raw) ⟨name, typeId, array, subMembers⟩ := by
  cases hscalar : scalarSize typeId with
  | some m =>
      rw [memberPlan_scalar hscalar] at hstop ⊢
      refine ⟨by rw [flatStep_of_noStop hstop], ?_⟩
      rw [memberEmits_scalar hscalar, memberPacked_scalars, hseqs, countBytes_written hstop,
        slot_bytes_raws]
      rfl
  | none =>
      -- a scalar the encoder does not know stops it
      exfalso
      unfold memberPlan at hstop
      rw [hscalar] at hstop
      cases typeId with
      | message => exact absurd hsize (by simp [typeSize])
      | string => exact absurd hsize (by simp [typeSize])
      | _ => exact absurd hstop (by simp [firstStop])

/-- Strings the encoder does not stop at are written as they are packed. -/
theorem texts_written {seqs : MessageMember → Bool} {name : String} {typeId : TypeId}
    {array : ArraySpec} {subMembers : List MessageMember}
    (hkind : typeId = .string ∨ typeId = .wstring)
    (hseqs : seqs ⟨name, typeId, array, subMembers⟩ = false)
    (hstop : firstStop (memberPlan ⟨name, typeId, array, subMembers⟩) = none)
    (texts : List (List UInt8)) :
    memberPlan ⟨name, typeId, array, subMembers⟩ = [.written]
      ∧ memberEmits (texts.map .str) ⟨name, typeId, array, subMembers⟩
        = memberPacked seqs (texts.map .str) ⟨name, typeId, array, subMembers⟩ := by
  rcases hkind with rfl | rfl
  · have hstep : firstStop [flatStep array] = none := hstop
    refine ⟨congrArg (fun step => [step]) (flatStep_of_noStop hstep), ?_⟩
    rw [memberEmits_texts, memberPacked_texts, hseqs, countBytes_written hstep]
    rfl
  · exact absurd hstop (by simp [memberPlan, scalarSize, firstStop])

theorem typeSize_not_message {typeId : TypeId} {n : Nat} (h : typeSize typeId = some n) :
    typeId ≠ .message := by
  rintro rfl
  exact absurd h (by simp [typeSize])

/-- A message member is either entered, without a count of its own, or passed over. -/
theorem entered_cases {array : ArraySpec} {name : String} {subMembers : List MessageMember}
    (hstop : firstStop (memberPlan ⟨name, .message, array, subMembers⟩) = none) {n : Nat}
    (hcount : array.Fits n) :
    (reached array = id ∧ countBytes array n = []
        ∧ ((0 < n ∧ firstStop (plan subMembers) = none
            ∧ memberPlan ⟨name, .message, array, subMembers⟩
              = (if writesSeq ⟨name, .message, array, subMembers⟩ then [.seq] else [])
                ++ plan subMembers)
          ∨ (n = 0 ∧ memberPlan ⟨name, .message, array, subMembers⟩
              = if writesSeq ⟨name, .message, array, subMembers⟩ then [.seq] else [])))
      ∨ (memberPlan ⟨name, .message, array, subMembers⟩
            = (if writesSeq ⟨name, .message, array, subMembers⟩ then [.seq] else []) ++ [.skipped]
        ∧ (∀ slot, reached array slot = []) ∧ countBytes array n = leBytes 4 n) := by
  rw [writesSeq_message]
  rw [memberPlan_message] at hstop ⊢
  rw [firstStop_seq] at hstop
  cases array with
  | single =>
      refine Or.inl ⟨rfl, rfl, Or.inl ⟨?_, hstop, rfl⟩⟩
      rw [show n = 1 from hcount]
      exact Nat.one_pos
  | fixed size =>
      obtain rfl : n = size := hcount
      refine Or.inl ⟨rfl, rfl, ?_⟩
      rcases Nat.eq_zero_or_pos n with hzero | hpos
      · refine Or.inr ⟨hzero, ?_⟩
        have hno : ¬ 0 < n := by omega
        simp only [hno, if_false, List.append_nil]
      · dsimp only at hstop ⊢
        rw [if_pos hpos] at hstop ⊢
        exact Or.inl ⟨hpos, hstop, rfl⟩
  | bounded bound =>
      dsimp only at hstop ⊢
      by_cases hpos : 0 < bound
      · rw [if_pos hpos] at hstop
        exact absurd rfl (firstStop_cons_none hstop .undefined)
      · rw [if_neg hpos]
        exact Or.inr ⟨rfl, fun _ => rfl, rfl⟩
  | unbounded => exact Or.inr ⟨rfl, fun _ => rfl, rfl⟩

/--
**Without sequences of messages the encoding is the packed one**, with a `seq` where the
encoder takes a member for a header.
-/
theorem emits_eq_packed {seqs : MessageMember → Bool}
    (hle : ∀ m, seqs m = true → writesSeq m = true) {members : List MessageMember}
    {obj : MsgObject} (h : HasType members obj) (hstop : firstStop (plan members) = none)
    (hskip : Step.skipped ∉ plan members) (hseq : Step.seq ∈ plan members → seqs = writesSeq) :
    emits obj members = packed seqs obj members := by
  have hplain : ∀ name typeId array subMembers, typeId ≠ .message →
      seqs ⟨name, typeId, array, subMembers⟩ = false := by
    intro name typeId array subMembers hm
    cases hs : seqs ⟨name, typeId, array, subMembers⟩ with
    | false => rfl
    | true =>
        have := hle _ hs
        rw [not_writesSeq hm] at this
        exact absurd this (by simp)
  induction h with
  | nil => rfl
  | @scalars name typeId array subMembers members obj n raws size each count rest ih =>
      rw [plan] at hstop hskip hseq
      obtain ⟨hstop₁, hstop₂⟩ := firstStop_append_none hstop
      have hseqs := hplain name typeId array subMembers (typeSize_not_message size)
      rw [emits_cons, packed_cons, (scalars_written size hseqs hstop₁ raws).2,
        ih hstop₂ (fun hc => hskip (List.mem_append_right _ hc))
          (fun hc => hseq (List.mem_append_right _ hc))]
  | @texts name typeId array subMembers members obj texts kind count rest ih =>
      rw [plan] at hstop hskip hseq
      obtain ⟨hstop₁, hstop₂⟩ := firstStop_append_none hstop
      have hm : typeId ≠ .message := by
        rcases kind with rfl | rfl <;> simp
      have hseqs := hplain name typeId array subMembers hm
      rw [emits_cons, packed_cons, (texts_written kind hseqs hstop₁ texts).2,
        ih hstop₂ (fun hc => hskip (List.mem_append_right _ hc))
          (fun hc => hseq (List.mem_append_right _ hc))]
  | @messages name array subMembers members obj objs inner count rest ihInner ih =>
      rw [plan] at hstop hskip hseq
      obtain ⟨hstop₁, hstop₂⟩ := firstStop_append_none hstop
      rw [emits_cons, packed_cons, ih hstop₂ (fun hc => hskip (List.mem_append_right _ hc))
        (fun hc => hseq (List.mem_append_right _ hc))]
      congr 1
      have hown : seqs ⟨name, .message, array, subMembers⟩
          = (array.arraySize == 0 && isStdHeader name subMembers) := by
        rw [← writesSeq_message]
        cases hw : writesSeq ⟨name, .message, array, subMembers⟩ with
        | false =>
            cases hs : seqs ⟨name, .message, array, subMembers⟩ with
            | false => rfl
            | true => exact absurd (hle _ hs) (by simp [hw])
        | true =>
            rw [writesSeq_message] at hw
            have hmem : Step.seq ∈ memberPlan ⟨name, .message, array, subMembers⟩ := by
              rw [memberPlan_message, if_pos hw]
              exact List.mem_append_left _ (by simp)
            rw [hseq (List.mem_append_left _ hmem), writesSeq_message, hw]
      rcases entered_cases hstop₁ count with ⟨hreach, hcnt, hsub⟩ | ⟨hskipped, -, -⟩
      · rw [memberEmits_messages _ _ _ _ hreach, memberPacked_messages, hown, hcnt,
          List.append_nil]
        congr 1
        rcases hsub with ⟨-, hsubStop, hplan⟩ | ⟨hzero, -⟩
        · have hsub : ∀ step ∈ plan subMembers,
              step ∈ memberPlan ⟨name, .message, array, subMembers⟩ ++ plan members := by
            intro step hstep
            rw [hplan]
            exact List.mem_append_left _ (List.mem_append_right _ hstep)
          apply List.flatMap_congr
          intro fields hfields
          exact ihInner fields hfields hsubStop (fun hc => hskip (hsub _ hc))
            (fun hc => hseq (hsub _ hc))
        · obtain rfl : objs = [] := List.eq_nil_of_length_eq_zero hzero
          rfl
      · refine absurd (List.mem_append_left _ ?_) hskip
        rw [hskipped]
        exact List.mem_append_right _ (by simp)

/-! ## With gaps -/

/-- `ys` is at least as long as `xs`, and longer where `steps` has `step`. -/
def Longer (step : Step) (xs ys : List UInt8) (steps : List Step) : Prop :=
  xs.length ≤ ys.length ∧ (step ∈ steps → xs.length < ys.length)

theorem Longer.append {step : Step} {xs ys xs' ys' : List UInt8} {steps steps' : List Step}
    (h : Longer step xs ys steps) (h' : Longer step xs' ys' steps') :
    Longer step (xs ++ xs') (ys ++ ys') (steps ++ steps') := by
  obtain ⟨hle, hlt⟩ := h
  obtain ⟨hle', hlt'⟩ := h'
  refine ⟨?_, fun hmem => ?_⟩
  · rw [List.length_append, List.length_append]
    omega
  · rw [List.length_append, List.length_append]
    rcases List.mem_append.mp hmem with hmem | hmem
    · have := hlt hmem
      omega
    · have := hlt' hmem
      omega

theorem Longer.same {step : Step} {xs ys : List UInt8} {steps : List Step} (h : xs = ys)
    (hno : step ∉ steps) : Longer step xs ys steps :=
  ⟨by rw [h], fun hmem => absurd hmem hno⟩

theorem Longer.flatMap {step : Step} {steps : List Step} {f g : MsgObject → List UInt8}
    {objs : List MsgObject} (h : ∀ obj ∈ objs, Longer step (f obj) (g obj) steps)
    (hne : 0 < objs.length) : Longer step (objs.flatMap f) (objs.flatMap g) steps := by
  induction objs with
  | nil => exact absurd hne (by simp)
  | cons obj objs ih =>
      rw [List.flatMap_cons, List.flatMap_cons]
      obtain ⟨hle, hlt⟩ := h obj (by simp)
      have hrest : (objs.flatMap f).length ≤ (objs.flatMap g).length := by
        rcases Nat.eq_zero_or_pos objs.length with hzero | hpos
        · obtain rfl := List.eq_nil_of_length_eq_zero hzero
          simp
        · exact (ih (fun x hx => h x (by simp [hx])) hpos).1
      refine ⟨?_, fun hmem => ?_⟩
      · rw [List.length_append, List.length_append]
        omega
      · have := hlt hmem
        rw [List.length_append, List.length_append]
        omega

/-- What the encoder passes over is missing from what it writes. -/
theorem emits_longer {members : List MessageMember} {obj : MsgObject} (h : HasType members obj)
    (hstop : firstStop (plan members) = none) :
    Longer .skipped (emits obj members) (packed writesSeq obj members) (plan members) := by
  induction h with
  | nil => exact Longer.same rfl (by simp [plan])
  | @scalars name typeId array subMembers members obj n raws size each count rest ih =>
      rw [plan] at hstop ⊢
      obtain ⟨hstop₁, hstop₂⟩ := firstStop_append_none hstop
      obtain ⟨hplan, hemits⟩ :=
        scalars_written size (not_writesSeq (typeSize_not_message size)) hstop₁ raws
      rw [emits_cons, packed_cons]
      exact (Longer.same hemits (by simp [hplan])).append (ih hstop₂)
  | @texts name typeId array subMembers members obj texts kind count rest ih =>
      rw [plan] at hstop ⊢
      obtain ⟨hstop₁, hstop₂⟩ := firstStop_append_none hstop
      have hm : typeId ≠ .message := by
        rcases kind with rfl | rfl <;> simp
      obtain ⟨hplan, hemits⟩ := texts_written kind (not_writesSeq hm) hstop₁ texts
      rw [emits_cons, packed_cons]
      exact (Longer.same hemits (by simp [hplan])).append (ih hstop₂)
  | @messages name array subMembers members obj objs inner count rest ihInner ih =>
      rw [plan] at hstop ⊢
      obtain ⟨hstop₁, hstop₂⟩ := firstStop_append_none hstop
      rw [emits_cons, packed_cons]
      refine Longer.append ?_ (ih hstop₂)
      rw [memberEmits_message, memberPacked_messages, writesSeq_message, List.append_assoc]
      rcases entered_cases hstop₁ count with ⟨hreach, hcnt, hsub⟩ | ⟨hplan, hreach, hcnt⟩
      · rw [hreach, hcnt, id, List.flatMap_map]
        rcases hsub with ⟨hpos, hsubStop, hplan⟩ | ⟨hzero, hplan⟩
        · rw [hplan, writesSeq_message]
          exact (Longer.same rfl (by split <;> simp)).append
            (Longer.flatMap (fun fields hfields => ihInner fields hfields hsubStop) hpos)
        · obtain rfl : objs = [] := List.eq_nil_of_length_eq_zero hzero
          rw [hplan]
          exact Longer.same rfl (by split <;> simp)
      · -- the four bytes of the count, at least
        rw [hplan, hreach, hcnt, writesSeq_message]
        refine (Longer.same rfl (by split <;> simp)).append ⟨by simp, fun _ => ?_⟩
        rw [List.length_append, length_leBytes]
        simp

/-- What the encoder takes for headers makes the encoding longer. -/
theorem packed_longer {members : List MessageMember} {obj : MsgObject} (h : HasType members obj)
    (hstop : firstStop (plan members) = none) (hskip : Step.skipped ∉ plan members) :
    Longer .seq (packed noSeq obj members) (packed writesSeq obj members) (plan members) := by
  induction h with
  | nil => exact Longer.same rfl (by simp [plan])
  | @scalars name typeId array subMembers members obj n raws size each count rest ih =>
      rw [plan] at hstop hskip ⊢
      obtain ⟨hstop₁, hstop₂⟩ := firstStop_append_none hstop
      obtain ⟨hplan, hemits⟩ :=
        scalars_written size (not_writesSeq (typeSize_not_message size)) hstop₁ raws
      rw [packed_cons, packed_cons, ← hemits, ← (scalars_written size rfl hstop₁ raws).2]
      exact (Longer.same rfl (by simp [hplan])).append
        (ih hstop₂ fun hc => hskip (List.mem_append_right _ hc))
  | @texts name typeId array subMembers members obj texts kind count rest ih =>
      rw [plan] at hstop hskip ⊢
      obtain ⟨hstop₁, hstop₂⟩ := firstStop_append_none hstop
      have hm : typeId ≠ .message := by
        rcases kind with rfl | rfl <;> simp
      obtain ⟨hplan, hemits⟩ := texts_written kind (not_writesSeq hm) hstop₁ texts
      rw [packed_cons, packed_cons, ← hemits, ← (texts_written kind rfl hstop₁ texts).2]
      exact (Longer.same rfl (by simp [hplan])).append
        (ih hstop₂ fun hc => hskip (List.mem_append_right _ hc))
  | @messages name array subMembers members obj objs inner count rest ihInner ih =>
      rw [plan] at hstop hskip ⊢
      obtain ⟨hstop₁, hstop₂⟩ := firstStop_append_none hstop
      rw [packed_cons, packed_cons]
      refine Longer.append ?_ (ih hstop₂ fun hc => hskip (List.mem_append_right _ hc))
      rcases entered_cases hstop₁ count with ⟨-, hcnt, hsub⟩ | ⟨hplan, -, -⟩
      · have hown : Longer .seq
            (if noSeq ⟨name, .message, array, subMembers⟩ then leBytes 4 0 else [])
            (if writesSeq ⟨name, .message, array, subMembers⟩ then leBytes 4 0 else [])
            (if writesSeq ⟨name, .message, array, subMembers⟩ then [.seq] else []) := by
          cases writesSeq ⟨name, .message, array, subMembers⟩ with
          | false => exact Longer.same rfl (by simp)
          | true =>
              refine ⟨Nat.zero_le _, fun _ => ?_⟩
              rw [if_pos rfl, length_leBytes]
              exact Nat.succ_pos 3
        rw [memberPacked_messages, memberPacked_messages, hcnt, List.append_nil, List.append_nil]
        rcases hsub with ⟨hpos, hsubStop, hplan⟩ | ⟨hzero, hplan⟩
        · rw [hplan] at hskip ⊢
          have hsubSkip : Step.skipped ∉ plan subMembers := by
            intro hc
            exact hskip (List.mem_append_left _ (List.mem_append_right _ hc))
          exact hown.append
            (Longer.flatMap (fun fields hfields => ihInner fields hfields hsubStop hsubSkip) hpos)
        · obtain rfl : objs = [] := List.eq_nil_of_length_eq_zero hzero
          rw [hplan, List.flatMap_nil, List.flatMap_nil, List.append_nil, List.append_nil]
          exact hown
      · refine absurd (List.mem_append_left _ ?_) hskip
        rw [hplan]
        exact List.mem_append_right _ (by simp)

/-! ## The sample value -/

theorem seq_zero : ∀ x ∈ leBytes 4 0, x = 0 := by
  intro x hx
  simpa [leBytes] using hx

theorem scalars_sample_zero {name : String} {typeId : TypeId} {array : ArraySpec}
    {subMembers : List MessageMember} {n : Nat} (hsize : typeSize typeId = some n) :
    ∀ x ∈ memberEmits (memberSample ⟨name, typeId, array, subMembers⟩)
      ⟨name, typeId, array, subMembers⟩, x = 0 := by
  intro x hx
  have hbytes : memberEmits ((List.replicate (sampleCount array)
      (List.replicate n (0 : UInt8))).map .raw) ⟨name, typeId, array, subMembers⟩
      = (List.replicate (sampleCount array) (List.replicate n 0)).flatten := by
    rw [← slot_bytes_raws]
    unfold memberEmits
    cases typeId with
    | string => exact absurd hsize (by simp [typeSize])
    | message => exact absurd hsize (by simp [typeSize])
    | _ => rfl
  rw [memberSample_scalar hsize, hbytes] at hx
  obtain ⟨raw, hraw, hx⟩ := List.mem_flatten.mp hx
  rw [List.eq_of_mem_replicate hraw] at hx
  exact List.eq_of_mem_replicate hx

theorem texts_sample_zero (name : String) (array : ArraySpec) (subMembers : List MessageMember) :
    ∀ x ∈ memberEmits (memberSample ⟨name, .string, array, subMembers⟩)
      ⟨name, .string, array, subMembers⟩, x = 0 := by
  intro x hx
  have hsample : memberSample ⟨name, .string, array, subMembers⟩
      = (List.replicate (sampleCount array) []).map .str := rfl
  rw [hsample, memberEmits_texts] at hx
  obtain ⟨text, htext, hx⟩ := List.mem_flatMap.mp hx
  rw [List.eq_of_mem_replicate htext] at hx
  exact seq_zero x (by simpa using hx)

/-- Wide strings are none of the kinds the encoder writes. -/
theorem wtexts_sample_zero (name : String) (array : ArraySpec) (subMembers : List MessageMember) :
    ∀ x ∈ memberEmits (memberSample ⟨name, .wstring, array, subMembers⟩)
      ⟨name, .wstring, array, subMembers⟩, x = 0 := by
  intro x hx
  have hempty : memberEmits (memberSample ⟨name, .wstring, array, subMembers⟩)
      ⟨name, .wstring, array, subMembers⟩ = [] := by
    show Slot.bytes ((List.replicate (sampleCount array) []).map .str) = []
    unfold Slot.bytes
    rw [List.flatMap_map, List.flatMap_eq_nil_iff]
    intro text _
    rfl
  rw [hempty] at hx
  exact absurd hx (by simp)

theorem messages_sample_zero (name : String) (array : ArraySpec) {subMembers : List MessageMember}
    (h : ∀ x ∈ emits (sample subMembers) subMembers, x = 0) :
    ∀ x ∈ memberEmits (memberSample ⟨name, .message, array, subMembers⟩)
      ⟨name, .message, array, subMembers⟩, x = 0 := by
  intro x hx
  rw [memberEmits_message] at hx
  rcases List.mem_append.mp hx with hx | hx
  · split at hx
    · exact seq_zero x hx
    · exact absurd hx (by simp)
  · obtain ⟨e, he, hx⟩ := List.mem_flatMap.mp hx
    have hmem : e ∈ memberSample ⟨name, .message, array, subMembers⟩ := by
      cases array with
      | single => exact he
      | fixed size => exact he
      | bounded bound => exact absurd he (by simp [reached])
      | unbounded => exact absurd he (by simp [reached])
    obtain ⟨fields, hfields, rfl⟩ := List.mem_map.mp hmem
    rw [List.eq_of_mem_replicate hfields] at hx
    exact h x hx

mutual

theorem memberEmits_sample_zero : ∀ (member : MessageMember),
    ∀ x ∈ memberEmits (memberSample member) member, x = 0
  | ⟨name, typeId, array, subMembers⟩ => by
      cases hsize : typeSize typeId with
      | some n => exact scalars_sample_zero hsize
      | none =>
          have hkind : typeId = .message ∨ typeId = .string ∨ typeId = .wstring := by
            cases typeId <;> simp [typeSize] at hsize ⊢
          rcases hkind with rfl | rfl | rfl
          · exact messages_sample_zero name array (emits_sample_zero subMembers)
          · exact texts_sample_zero name array subMembers
          · exact wtexts_sample_zero name array subMembers

/-- The encoder writes nothing but zeros for the sample value. -/
theorem emits_sample_zero : ∀ (members : List MessageMember),
    ∀ x ∈ emits (sample members) members, x = 0
  | [], x, hx => absurd hx (by simp [emits])
  | member :: members, x, hx => by
      rw [sample, emits_cons] at hx
      rcases List.mem_append.mp hx with hx | hx
      · exact memberEmits_sample_zero member x hx
      · exact emits_sample_zero members x hx

end

mutual

theorem memberPacked_sample_one : ∀ (member : MessageMember), memberProper member →
    Step.skipped ∈ memberPlan member → 1 ∈ memberPacked noSeq (memberSample member) member
  | ⟨name, typeId, array, subMembers⟩, hproper, hskip => by
      rw [memberProper] at hproper
      have hm : typeId = .message := by
        unfold memberPlan at hskip
        cases typeId with
        | message => rfl
        | _ => exact absurd hskip (by
            rcases flatStep_cases array with ⟨hstep, -⟩ | ⟨hstep, -⟩ <;> simp [scalarSize, hstep])
      subst hm
      rw [show memberSample ⟨name, .message, array, subMembers⟩
        = (List.replicate (sampleCount array) (sample subMembers)).map .msg from rfl,
        memberPacked_messages, List.length_replicate, List.append_assoc]
      apply List.mem_append_right
      have hinner : Step.skipped ∈ plan subMembers → 0 < sampleCount array →
          1 ∈ (List.replicate (sampleCount array) (sample subMembers)).flatMap
            fun fields => packed noSeq fields subMembers := by
        intro hsub hpos
        refine List.mem_flatMap.mpr ⟨sample subMembers, ?_, packed_sample_one subMembers
          hproper.2 hsub⟩
        exact List.mem_replicate.mpr ⟨by omega, rfl⟩
      rw [memberPlan_message] at hskip
      rcases List.mem_append.mp hskip with hskip | hskip
      · exact absurd hskip (by split <;> simp)
      · cases array with
        | single => exact List.mem_append_right _ (hinner hskip Nat.one_pos)
        | fixed size =>
            dsimp only at hskip
            by_cases hpos : 0 < size
            · rw [if_pos hpos] at hskip
              exact List.mem_append_right _ (hinner hskip hpos)
            · rw [if_neg hpos] at hskip
              exact absurd hskip (by simp)
        | bounded bound =>
            dsimp only at hskip
            rw [if_pos (hproper.1 bound rfl)] at hskip
            exact absurd hskip (by simp)
        | unbounded =>
            apply List.mem_append_left
            show (1 : UInt8) ∈ leBytes 4 1
            decide

/-- The count of a sequence with one element is not zero. -/
theorem packed_sample_one : ∀ (members : List MessageMember), Proper members →
    Step.skipped ∈ plan members → 1 ∈ packed noSeq (sample members) members
  | [], _, hskip => absurd hskip (by simp [plan])
  | member :: members, hproper, hskip => by
      rw [Proper] at hproper
      rw [plan] at hskip
      rw [sample, packed_cons]
      rcases List.mem_append.mp hskip with hskip | hskip
      · exact List.mem_append_left _ (memberPacked_sample_one member hproper.1 hskip)
      · exact List.mem_append_right _ (packed_sample_one members hproper.2 hskip)

end

/-! ## Exact or refused -/

/-- The encoder refuses the value, throws, or appends its packed encoding. -/
def ExactOrRefuses (members : List MessageMember) (obj : MsgObject) : Prop :=
  ∀ b : WriteBuffer,
    match serializedStructToRos1 obj b members with
    | .ok (false, _) => True
    | .ok (true, b') => b'.written = b.written ++ packed noSeq obj members
    | .error (.thrown _) => True
    | .error (.undefined _) => False

/--
The encoder stops with a refusal or an exception, or it meets neither a sequence of
messages nor a member it takes for a header.
-/
def PackedOrRefused (members : List MessageMember) : Prop :=
  match firstStop (plan members) with
  | some .undefined => False
  | some .refused => True
  | some .thrown => True
  | none => Step.skipped ∉ plan members ∧ Step.seq ∉ plan members

theorem emits_noSeq {members : List MessageMember} {obj : MsgObject} (h : HasType members obj)
    (hstop : firstStop (plan members) = none) (hskip : Step.skipped ∉ plan members)
    (hseq : Step.seq ∉ plan members) : emits obj members = packed noSeq obj members :=
  emits_eq_packed (fun _ hm => absurd hm (by simp [noSeq])) h hstop hskip
    fun hmem => absurd hmem hseq

theorem emits_writesSeq {members : List MessageMember} {obj : MsgObject}
    (h : HasType members obj) (hstop : firstStop (plan members) = none)
    (hskip : Step.skipped ∉ plan members) : emits obj members = packed writesSeq obj members :=
  emits_eq_packed (fun _ hm => hm) h hstop hskip fun _ => rfl

/-- On a type the encoder does not stop in, it is exact if it writes the packed encoding. -/
theorem exact_of_noStop {members : List MessageMember} {obj : MsgObject}
    (h : HasType members obj) (hstop : firstStop (plan members) = none) :
    ExactOrRefuses members obj ↔ emits obj members = packed noSeq obj members := by
  have hends := serialize_ok h hstop
  constructor
  · intro hexact
    obtain ⟨b', hok, hwrote⟩ := hends (.new 0)
    have hb := hexact (.new 0)
    rw [hok] at hb
    exact List.append_cancel_left (hwrote.written.symm.trans hb)
  · intro heq b
    obtain ⟨b', hok, hwrote⟩ := hends b
    rw [hok, ← heq]
    exact hwrote.written

/-- The sample value shows a gap, or a `seq` where none belongs. -/
theorem packed_of_sample {members : List MessageMember} (hproper : Proper members)
    (hstop : firstStop (plan members) = none)
    (heq : emits (sample members) members = packed noSeq (sample members) members) :
    Step.skipped ∉ plan members ∧ Step.seq ∉ plan members := by
  have hskip : Step.skipped ∉ plan members := by
    intro hmem
    have hone := packed_sample_one members hproper hmem
    rw [← heq] at hone
    exact absurd (emits_sample_zero members 1 hone) (by decide)
  refine ⟨hskip, fun hmem => ?_⟩
  have hty := sample_hasType members
  have hlt := (packed_longer hty hstop hskip).2 hmem
  rw [← heq, emits_writesSeq hty hstop hskip] at hlt
  exact absurd hlt (Nat.lt_irrefl _)

/--
**When the encoder is exact or refuses.** On every other type it returns `true` for a
value whose elements it has left out or shifted, or reads memory as what it is not.
-/
theorem encoder_exact_iff {members : List MessageMember} (hproper : Proper members) :
    (∀ obj, HasType members obj → ExactOrRefuses members obj) ↔ PackedOrRefused members := by
  unfold PackedOrRefused
  cases hstop : firstStop (plan members) with
  | none =>
      constructor
      · intro hall
        have hty := sample_hasType members
        exact packed_of_sample hproper hstop ((exact_of_noStop hty hstop).mp (hall _ hty))
      · intro hno obj hty
        exact (exact_of_noStop hty hstop).mpr (emits_noSeq hty hstop hno.1 hno.2)
  | some why =>
      have hends : ∀ obj, HasType members obj → ∀ b : WriteBuffer,
          Ends (some why) (emits obj members) b (serializedStructToRos1 obj b members) := by
        intro obj hty b
        have hb := serialize_ends hty b
        rwa [hstop] at hb
      cases why with
      | refused =>
          refine ⟨fun _ => trivial, fun _ obj hty b => ?_⟩
          obtain ⟨b', hr⟩ := hends obj hty b
          rw [hr]
          trivial
      | thrown =>
          refine ⟨fun _ => trivial, fun _ obj hty b => ?_⟩
          obtain ⟨e, hr⟩ := hends obj hty b
          rw [hr]
          trivial
      | undefined =>
          refine ⟨fun hall => ?_, fun hno => hno.elim⟩
          have hty := sample_hasType members
          obtain ⟨what, hr⟩ := hends _ hty (.new 0)
          have hb := hall _ hty (.new 0)
          rw [hr] at hb
          exact hb

/-- `geometry_msgs/Point32`. -/
def point32 : List MessageMember :=
  [⟨"x", .float, .single, []⟩, ⟨"y", .float, .single, []⟩, ⟨"z", .float, .single, []⟩]

/-- The point (1, 0, 0). -/
def unitX : MsgObject := [[.raw [0, 0, 128, 63]], [.raw [0, 0, 0, 0]], [.raw [0, 0, 0, 0]]]

theorem unitX_hasType : HasType point32 unitX :=
  HasType.scalars [[0, 0, 128, 63]] rfl (by simp) rfl
    (HasType.scalars [[0, 0, 0, 0]] rfl (by simp) rfl
      (HasType.scalars [[0, 0, 0, 0]] rfl (by simp) rfl HasType.nil))

/-- `geometry_msgs/Polygon`. -/
def polygon : List MessageMember := [⟨"points", .message, .unbounded, point32⟩]

theorem encoder_exact_point32 : ExactOrRefuses point32 unitX :=
  (encoder_exact_iff (by simp [point32, Proper, memberProper])).mpr
    (by simp [PackedOrRefused, point32, plan, memberPlan, scalarSize, flatStep,
      ArraySpec.isArray, firstStop]) unitX unitX_hasType

/-- A polygon with one point is reported as converted, and nothing is written. -/
theorem polygon_not_exact :
    HasType polygon [[.msg unitX]]
      ∧ serializedStructToRos1 [[.msg unitX]] (.new 24) polygon = .ok (true, .new 24)
      ∧ ¬ExactOrRefuses polygon [[.msg unitX]] := by
  have hty : HasType polygon [[.msg unitX]] :=
    HasType.messages [unitX] (by simpa using unitX_hasType) trivial HasType.nil
  refine ⟨hty, rfl, ?_⟩
  rw [exact_of_noStop hty rfl]
  decide

end RosserialServer
