import RosserialServer.Transport.AsyncReadBuffer

/-!
# What `AsyncReadBuffer` holds and hands out

Everything the buffer does is described by one byte string, `content`: the bytes
between `read_index_` and `write_index_`. `read` never loses or reorders it — the
reset and the `memmove` only move it to the front — and a delivery takes the
requested number of bytes off its head. The slice of a delivery lies below
`read_index_`, so it still holds those bytes when the posted callback runs.

The index invariant is `Valid`; `Serving` is a valid buffer with a known capacity,
request and content, which is what each operation below maps to another.
-/

namespace RosserialServer

open MemBlock

namespace AsyncReadBuffer

variable {κ : Type}

/-- The bytes received and not yet handed out. -/
def content (b : AsyncReadBuffer κ) : List UInt8 := slice b.mem b.readIndex b.alreadyBytes

/-- The indices are in order and inside `mem_`. -/
structure Valid (b : AsyncReadBuffer κ) : Prop where
  read_le : b.readIndex ≤ b.writeIndex
  write_le : b.writeIndex ≤ b.mem.length

/-- A valid buffer of capacity `C` asked for `n` bytes with callback `k`, holding `bytes`. -/
structure Serving (C n : Nat) (k : κ) (bytes : List UInt8) (b : AsyncReadBuffer κ) : Prop where
  valid : b.Valid
  capacity : b.mem.length = C
  requested : b.readRequestedBytes = n
  callback : b.readSussessCallback = some k
  holds : b.content = bytes

theorem length_content {b : AsyncReadBuffer κ} (h : b.Valid) :
    b.content.length = b.alreadyBytes := by
  have h1 := h.read_le
  have h2 := h.write_le
  exact length_slice (by unfold alreadyBytes; omega)

theorem Serving.length {C n : Nat} {k : κ} {bytes : List UInt8} {b : AsyncReadBuffer κ}
    (h : b.Serving C n k bytes) : b.alreadyBytes = bytes.length := by
  rw [← h.holds, length_content h.valid]

theorem valid_new (C : Nat) : (new C : AsyncReadBuffer κ).Valid :=
  ⟨Nat.le_refl _, Nat.zero_le _⟩

@[simp] theorem content_new (C : Nat) : (new C : AsyncReadBuffer κ).content = [] := by
  simp [content, new, alreadyBytes]

/-! ## Making room -/

/-- Moving the unread bytes to the front keeps them. -/
theorem content_compact {b : AsyncReadBuffer κ} (h : b.Valid) :
    slice (overwrite b.mem 0 b.content) 0 b.alreadyBytes = b.content := by
  have hself : slice (overwrite b.mem 0 b.content) 0 b.content.length = b.content :=
    slice_overwrite_self (Nat.zero_le _)
  rwa [length_content h] at hself

/-- **`read` makes enough room without touching the unread bytes.** -/
theorem makeRoom_spec {C n d : Nat} {k : κ} {bytes : List UInt8} {b : AsyncReadBuffer κ}
    (h : b.Serving C n k bytes) (hd : bytes.length + d ≤ C) :
    (b.makeRoom d).Serving C n k bytes ∧ d ≤ (b.makeRoom d).tailRemainBytes := by
  have hv := h.valid
  have hlen := h.length
  have hr := hv.read_le
  have hw := hv.write_le
  have hC := h.capacity
  unfold makeRoom
  split
  · rename_i hroom
    split
    · -- everything has been read: both indices go back to the front
      rename_i heq
      have hempty : bytes = [] := by
        apply List.eq_nil_of_length_eq_zero
        rw [← hlen]; unfold alreadyBytes; omega
      subst hempty
      refine ⟨⟨⟨Nat.le_refl _, Nat.zero_le _⟩, hC, h.requested, h.callback, ?_⟩, ?_⟩
      · simp [content, reset, alreadyBytes]
      · simp only [tailRemainBytes, reset]
        simp only [List.length_nil] at hd
        omega
    · have hmem : (overwrite b.mem 0 b.content).length = b.mem.length :=
        length_overwrite (by rw [length_content hv]; unfold alreadyBytes; omega)
      refine ⟨⟨⟨Nat.zero_le _, ?_⟩, ?_, h.requested, h.callback, ?_⟩, ?_⟩
      · show b.alreadyBytes ≤ (overwrite b.mem 0 b.content).length
        rw [hmem]; unfold alreadyBytes; omega
      · show (overwrite b.mem 0 b.content).length = C
        rw [hmem, hC]
      · show slice (overwrite b.mem 0 b.content) 0 (b.alreadyBytes - 0) = bytes
        rw [Nat.sub_zero, content_compact hv, h.holds]
      · show d ≤ (overwrite b.mem 0 b.content).length - b.alreadyBytes
        rw [hmem, hC, hlen]
        omega
  · rename_i hroom
    exact ⟨h, by omega⟩

/-! ## Delivering -/

/--
**A delivery takes the requested bytes off the head of the content.** Its slice is
in `mem_`, which the delivery itself does not write.
-/
theorem callSussessCallback_spec {C n : Nat} {k : κ} {bytes : List UInt8}
    {b : AsyncReadBuffer κ} (h : b.Serving C n k bytes) (hn : n ≤ bytes.length) :
    (b.callSussessCallback).2 = .post (some k) b.readIndex n
      ∧ (b.callSussessCallback).1.Serving C n k (bytes.drop n)
      ∧ slice (b.callSussessCallback).1.mem b.readIndex n = bytes.take n := by
  have hv := h.valid
  have hlen := h.length
  have hr := hv.read_le
  have hw := hv.write_le
  have hreq := h.requested
  have hsl : slice b.mem b.readIndex n = bytes.take n := by
    rw [← h.holds, content, take_slice _ _ (by omega)]
  have hdrop : slice b.mem (b.readIndex + n) (b.writeIndex - (b.readIndex + n)) = bytes.drop n := by
    rw [← h.holds, content, drop_slice]
    congr 1
    unfold alreadyBytes; omega
  have hle : b.readIndex + n ≤ b.writeIndex := by unfold alreadyBytes at hlen; omega
  unfold callSussessCallback
  rw [hreq, h.callback]
  dsimp only
  split
  · rename_i heq
    refine ⟨rfl, ⟨⟨Nat.le_refl _, Nat.zero_le _⟩, h.capacity, rfl, rfl, ?_⟩, hsl⟩
    rw [← hdrop, heq]
    simp [content, reset, alreadyBytes]
  · exact ⟨rfl, ⟨⟨hle, hw⟩, h.capacity, rfl, rfl, hdrop⟩, hsl⟩

/-! ## `read` and its completion -/

/-- `b` is ready to be filled with `d` or more bytes behind `bytes`. -/
structure Waiting (C n : Nat) (k : κ) (bytes : List UInt8) (b : AsyncReadBuffer κ) : Prop where
  serving : b.Serving C n k bytes
  short : bytes.length < n
  room : n - bytes.length ≤ b.tailRemainBytes

/-- The buffer with a request recorded, before `read` looks at what it holds. -/
def request (b : AsyncReadBuffer κ) (n : Nat) (k : κ) : AsyncReadBuffer κ :=
  { b with readSussessCallback := some k, readRequestedBytes := n }

theorem request_serving {C n : Nat} {k : κ} {b : AsyncReadBuffer κ} (hv : b.Valid)
    (hC : b.mem.length = C) : (b.request n k).Serving C n k b.content :=
  ⟨⟨hv.read_le, hv.write_le⟩, hC, rfl, rfl, rfl⟩

theorem read_refuses {b : AsyncReadBuffer κ} {n : Nat} {k : κ} (h : n > b.mem.length ∨ n = 0) :
    b.read n k = (b.request n k, none) := if_pos h

theorem read_waits {b : AsyncReadBuffer κ} {n : Nat} {k : κ} (h : ¬(n > b.mem.length ∨ n = 0))
    (hn : n > b.alreadyBytes) :
    b.read n k = ((b.request n k).makeRoom (n - b.alreadyBytes),
      some (.asyncRead ((b.request n k).makeRoom (n - b.alreadyBytes)).writeIndex
        ((b.request n k).makeRoom (n - b.alreadyBytes)).tailRemainBytes
        (n - b.alreadyBytes))) := (if_neg h).trans (if_pos hn)

theorem read_posts {b : AsyncReadBuffer κ} {n : Nat} {k : κ} (h : ¬(n > b.mem.length ∨ n = 0))
    (hn : ¬n > b.alreadyBytes) :
    b.read n k = ((b.request n k).callSussessCallback.1,
      some (b.request n k).callSussessCallback.2) := (if_neg h).trans (if_neg hn)

/--
**Everything a `read` can do.** It refuses the request, starts a port read for the
missing bytes, or posts the requested bytes at once.
-/
theorem read_cases {C : Nat} {b : AsyncReadBuffer κ} (n : Nat) (k : κ) (hv : b.Valid)
    (hC : b.mem.length = C) :
    (¬(0 < n ∧ n ≤ C) ∧ (b.read n k).2 = none ∧ (b.read n k).1.Serving C n k b.content)
    ∨ ((0 < n ∧ n ≤ C)
        ∧ (b.read n k).2 = some (.asyncRead (b.read n k).1.writeIndex
            (b.read n k).1.tailRemainBytes (n - b.content.length))
        ∧ (b.read n k).1.Waiting C n k b.content)
    ∨ ((0 < n ∧ n ≤ C) ∧ ∃ off, (b.read n k).2 = some (.post (some k) off n)
        ∧ (b.read n k).1.Serving C n k (b.content.drop n)
        ∧ slice (b.read n k).1.mem off n = b.content.take n
        ∧ n ≤ b.content.length) := by
  have hs := request_serving (n := n) (k := k) hv hC
  have hlen : b.alreadyBytes = b.content.length := (length_content hv).symm
  by_cases href : n > b.mem.length ∨ n = 0
  · rw [read_refuses href]
    exact Or.inl ⟨by omega, rfl, hs⟩
  · have hgood : 0 < n ∧ n ≤ C := by omega
    by_cases hmore : n > b.alreadyBytes
    · rw [read_waits href hmore, hlen]
      have hmk := makeRoom_spec hs (d := n - b.content.length) (by omega)
      exact Or.inr (Or.inl ⟨hgood, rfl, hmk.1, by omega, hmk.2⟩)
    · rw [read_posts href hmore]
      have hcs := callSussessCallback_spec hs (by omega)
      exact Or.inr (Or.inr ⟨hgood, b.readIndex, congrArg some hcs.1, hcs.2.1, hcs.2.2, by omega⟩)

/--
**A completed port read always satisfies the request**: `async_read` may not return
before the missing bytes are there, so the `async_read_some` branch is not taken.
-/
theorem readCallback_spec {C n : Nat} {k : κ} {bytes : List UInt8} {b : AsyncReadBuffer κ}
    (h : b.Waiting C n k bytes) (new : List UInt8) (hmin : n - bytes.length ≤ new.length)
    (hmax : new.length ≤ b.tailRemainBytes) :
    let filled := { b with mem := overwrite b.mem b.writeIndex new }
    (filled.readCallback false new.length).2 = some (.post (some k) b.readIndex n)
      ∧ (filled.readCallback false new.length).1.Serving C n k ((bytes ++ new).drop n)
      ∧ slice (filled.readCallback false new.length).1.mem b.readIndex n
          = (bytes ++ new).take n := by
  intro filled
  have hs := h.serving
  have hr := hs.valid.read_le
  have hw := hs.valid.write_le
  have hlen := hs.length
  have hmem : (overwrite b.mem b.writeIndex new).length = b.mem.length :=
    length_overwrite (by unfold tailRemainBytes at hmax; omega)
  have hfull : ({ filled with writeIndex := b.writeIndex + new.length } :
      AsyncReadBuffer κ).Serving C n k (bytes ++ new) := by
    refine ⟨⟨?_, ?_⟩, ?_, hs.requested, hs.callback, ?_⟩
    · show b.readIndex ≤ b.writeIndex + new.length
      omega
    · show b.writeIndex + new.length ≤ (overwrite b.mem b.writeIndex new).length
      rw [hmem]; unfold tailRemainBytes at hmax; omega
    · show (overwrite b.mem b.writeIndex new).length = C
      rw [hmem, hs.capacity]
    · -- the old content is below the written bytes, and the new bytes follow it
      show slice (overwrite b.mem b.writeIndex new) b.readIndex
        (b.writeIndex + new.length - b.readIndex) = bytes ++ new
      have hsplit : b.writeIndex + new.length - b.readIndex = b.alreadyBytes + new.length := by
        unfold alreadyBytes; omega
      have hat : b.readIndex + b.alreadyBytes = b.writeIndex := by unfold alreadyBytes; omega
      rw [hsplit, slice_add, hat, slice_overwrite_self hw,
        slice_overwrite_below (by omega) hw]
      show b.content ++ new = bytes ++ new
      rw [hs.holds]
  have henough : n ≤ (bytes ++ new).length := by
    simp only [List.length_append]; omega
  have hcs := callSussessCallback_spec hfull henough
  have hbranch : filled.readRequestedBytes
      ≤ ({ filled with writeIndex := b.writeIndex + new.length } :
        AsyncReadBuffer κ).alreadyBytes := by
    rw [hfull.length]
    show b.readRequestedBytes ≤ _
    rw [hs.requested]; exact henough
  unfold readCallback
  rw [if_neg (by simp), if_pos hbranch]
  exact ⟨congrArg some hcs.1, hcs.2.1, hcs.2.2⟩

end AsyncReadBuffer

end RosserialServer
