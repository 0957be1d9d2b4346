import RosserialServer.Proof.Liveness
import RosserialServer.Session.Reconfigure

/-!
# Reading across a reconfiguration

Nothing but `start_read` and the read handlers asks `async_reader_` for bytes, and
`parameter_callback` calls neither. A port that it reopens therefore gets a reader on
which no read is ever made, while whatever was outstanding still refers to the reader that
has just been destroyed. And the constructor calls `start_read` also when `open_serial`
has failed and left `async_reader_` null.

`Survives` is the property a reconfigured session should have, and `KeepsReading` is the
condition on a step under which it does: in short, that no reload opens the port. Reading
then goes on as `read_loop_live_iff` describes, or has nothing left to read from.
-/

namespace RosserialServer

variable {τ : Type} {dispatch : Dispatch τ}

/-! ## What a call of `parameter_callback` does to the port -/

namespace SerialState

variable {outcome : Nat → ReloadOutcome}

/-- A call that returns leaves a state satisfying `I`, and one that throws leaves one
satisfying `J`. -/
def Leaves {α : Type} (I J : SerialState → Prop) : SerialState × Except StdException α → Prop
  | (s, .ok _) => I s
  | (s, .error _) => J s

section Rule

variable {I J : SerialState → Prop}

theorem trySettings_leaves
    (hreload : ∀ s port baud, I s → Leaves I J (s.reloadHardware outcome port baud))
    (hconfig : ∀ s config, I s → I { s with config := config }) {s : SerialState} (hs : I s)
    (new : SerialConfig) (reason : String) : Leaves I J (s.trySettings outcome new reason) := by
  have h1 := hreload s new.port new.baud hs
  unfold trySettings
  rcases hr : s.reloadHardware outcome new.port new.baud with ⟨t, _ | b⟩
  · rw [hr] at h1
    exact h1
  · rw [hr] at h1
    cases b with
    | true => exact hconfig t new h1
    | false =>
        -- the old settings are reloaded from the state the failed reload has left
        have h2 := hreload t t.config.port t.config.baud h1
        dsimp only
        rcases hr' : t.reloadHardware outcome t.config.port t.config.baud with ⟨u, _ | b⟩
        · rw [hr'] at h2
          exact h2
        · rw [hr'] at h2
          exact h2

theorem setParameter_leaves
    (hreload : ∀ s port baud, I s → Leaves I J (s.reloadHardware outcome port baud))
    (hconfig : ∀ s config, I s → I { s with config := config }) (hIJ : ∀ s, I s → J s)
    {s : SerialState} (hs : I s) (param : Parameter) :
    Leaves I J (s.setParameter outcome param) := by
  unfold setParameter
  split
  · unfold baudParameter
    cases param.asInt with
    | error e => exact hIJ s hs
    | ok value =>
        dsimp only
        split
        · exact hs
        · exact trySettings_leaves hreload hconfig hs _ _
  · split
    · unfold portParameter
      cases param.asString with
      | error e => exact hIJ s hs
      | ok newPort =>
          dsimp only
          split
          · exact hs
          · exact trySettings_leaves hreload hconfig hs _ _
    · exact hs

/--
**The rule for `parameter_callback`.** What every reload and every change of the
configuration keeps, the whole call keeps.
-/
theorem parameterCallback_leaves
    (hreload : ∀ s port baud, I s → Leaves I J (s.reloadHardware outcome port baud))
    (hconfig : ∀ s config, I s → I { s with config := config }) (hIJ : ∀ s, I s → J s)
    {s : SerialState} (hs : I s) (params : List Parameter) :
    Leaves I J (s.parameterCallback outcome params) := by
  induction params generalizing s with
  | nil => exact hs
  | cons param params ih =>
      have h1 := setParameter_leaves hreload hconfig hIJ hs param
      unfold parameterCallback
      rcases hr : s.setParameter outcome param with ⟨t, _ | _ | result⟩
      · rw [hr] at h1
        exact h1
      · rw [hr] at h1
        exact ih h1
      · rw [hr] at h1
        exact h1

end Rule

/-- A reader has been made exactly if one of the reloads has opened the port. -/
def Counts (outcome : Nat → ReloadOutcome) (s : SerialState) : Prop :=
  s.readersMade = 0 ↔ ∀ n < s.reloads, outcome n ≠ .closes .opens

/-- What the reloads of a call have done to a port that was `serial` before it. -/
structure Reloaded (outcome : Nat → ReloadOutcome) (serial : Option OpenPort)
    (s : SerialState) : Prop where
  counts : s.Counts outcome
  untouched : s.reloads = 0 → s.serial = serial
  /-- The last reload decides whether the port is open. -/
  last : ∀ n, s.reloads = n + 1 → (s.serial.isSome ↔ outcome n = .closes .opens)

/-- One more reload that opens the port. -/
theorem counts_opens {s t : SerialState} (hopen : outcome s.reloads = .closes .opens)
    (hmade : t.readersMade = s.readersMade + 1) (hreloads : t.reloads = s.reloads + 1) :
    t.Counts outcome := by
  unfold Counts
  rw [hmade, hreloads]
  constructor
  · intro h
    omega
  · intro h
    exact absurd hopen (h s.reloads (by omega))

/-- One more reload that does not. -/
theorem counts_fails {s t : SerialState} (h : s.Counts outcome)
    (hfail : outcome s.reloads ≠ .closes .opens) (hmade : t.readersMade = s.readersMade)
    (hreloads : t.reloads = s.reloads + 1) : t.Counts outcome := by
  unfold Counts at h ⊢
  rw [hmade, hreloads, h]
  constructor
  · intro hall n hn
    rcases Nat.lt_succ_iff_lt_or_eq.mp hn with hlt | heq
    · exact hall n hlt
    · rw [heq]
      exact hfail
  · intro hall n hn
    exact hall n (by omega)

theorem reloadHardware_reloaded {serial : Option OpenPort} {s : SerialState}
    (h : s.Reloaded outcome serial) (port : String) (baud : Int32) :
    Leaves (Reloaded outcome serial) (Counts outcome) (s.reloadHardware outcome port baud) := by
  have hlast : ∀ n, s.reloads + 1 = n + 1 → n = s.reloads := by
    intro n hn
    omega
  unfold reloadHardware
  cases hout : outcome s.reloads with
  | closeFails =>
      have hne : outcome s.reloads ≠ .closes .opens := by rw [hout]; simp
      refine ⟨counts_fails h.counts hne rfl rfl, by simp, ?_⟩
      intro n hn
      rw [hlast n hn, hout]
      simp
  | closes opening =>
      cases opening with
      | fails =>
          have hne : outcome s.reloads ≠ .closes .opens := by rw [hout]; simp
          refine ⟨counts_fails h.counts hne rfl rfl, by simp, ?_⟩
          intro n hn
          rw [hlast n hn, hout]
          simp
      | optionThrows i e =>
          have hne : outcome s.reloads ≠ .closes .opens := by rw [hout]; simp
          exact counts_fails h.counts hne rfl rfl
      | opens =>
          refine ⟨counts_opens hout rfl rfl, by simp, ?_⟩
          intro n hn
          rw [hlast n hn, hout]
          simp

/-- **What a whole call has done to the port.** -/
theorem parameterCallback_reloaded (outcome : Nat → ReloadOutcome) (config : SerialConfig)
    (serial : Option OpenPort) (params : List Parameter) :
    Leaves (Reloaded outcome serial) (Counts outcome)
      (parameterCallback outcome
        { config := config, serial := serial, readersMade := 0, reloads := 0 } params) := by
  refine parameterCallback_leaves ?_ ?_ ?_ ?_ params
  · intro s port baud hs
    exact reloadHardware_reloaded hs port baud
  · intro s config hs
    exact ⟨hs.counts, hs.untouched, hs.last⟩
  · intro s hs
    exact hs.counts
  · exact ⟨by simp [Counts], fun _ => rfl, by simp⟩

end SerialState

/-! ## What the session can do -/

theorem onTrack_supplied {w : ReadWorld Handler (Session τ)} (h : OnTrack w)
    (arrived : List UInt8) (wire : List (List UInt8)) :
    OnTrack { w with arrived := arrived, wire := wire } := by
  obtain ⟨used, rest, next, hloc, ht⟩ := h
  cases ht with
  | waiting h1 h2 h3 h4 => exact ⟨used, _, _, hloc, ReadWorld.Tracks.waiting h1 h2 h3 h4⟩
  | posted h1 h2 h3 h4 h5 h6 =>
      exact ⟨used, _, _, hloc, ReadWorld.Tracks.posted h1 h2 h3 h4 h5 h6⟩
  | refused h1 h2 h3 h4 => exact ⟨used, _, _, hloc, ReadWorld.Tracks.refused h1 h2 h3 h4⟩
  | ended h1 h2 => exact ⟨used, _, _, hloc, ReadWorld.Tracks.ended h1 h2⟩

/-- A failed port read leaves nothing outstanding. -/
theorem fail_silent {w w' : ReadWorld Handler (Session τ)} {e : PortEvent} (h : OnTrack w)
    (hfail : e.isFail = true) (hs : w.step (handle dispatch) e = some w') :
    w'.serviceIo = [] ∧ w'.escaped = none := by
  obtain ⟨used, rest, next, -, ht⟩ := h
  obtain ⟨hesc, hcases⟩ := ReadWorld.step_cases hs
  rcases hcases with ⟨rfl, -⟩ | ⟨i, n, -, -, -, -, rfl, -⟩ |
    ⟨i, c, off, size, d, rfl, hc, -, rfl⟩ | ⟨i, -, -, -, rfl, -⟩
  · exact absurd hfail (by simp [PortEvent.isFail])
  · exact absurd hfail (by simp [PortEvent.isFail])
  · refine ⟨?_, hesc⟩
    show w.serviceIo.eraseIdx i ++ [] = []
    rw [ht.eraseIdx hc, List.nil_append]
  · exact absurd hfail (by simp [PortEvent.isFail])

/-- Nothing happens to a reader that has nothing outstanding. -/
theorem idle_stuck {w w' : ReadWorld Handler (Session τ)} {e : PortEvent}
    (hio : w.serviceIo = []) (hwire : w.wire = [])
    (hs : w.step (handle dispatch) e = some w') : False := by
  obtain ⟨-, hcases⟩ := ReadWorld.step_cases hs
  rcases hcases with ⟨-, chunk, wire, hw, -⟩ | ⟨i, n, c, off, size, d, -, hc, -⟩ |
    ⟨i, c, off, size, d, -, hc, -⟩ | ⟨i, callback, off, len, -, hc, -⟩
  · rw [hwire] at hw
    exact absurd hw (by simp)
  · rw [hio] at hc
    exact absurd hc (by simp)
  · rw [hio] at hc
    exact absurd hc (by simp)
  · rw [hio] at hc
    exact absurd hc (by simp)

/-- The handler that runs an oversized header returns; the session falls silent after it. -/
theorem oversized_returns {w w' : ReadWorld Handler (Session τ)} {e : PortEvent}
    (h : Oversized w e) (hs : w.step (handle dispatch) e = some w') : w'.escaped = none := by
  obtain ⟨i, off, rfl, hc, lo, hi, check, t0, t1, hsl, hacc, -⟩ := h
  obtain ⟨hesc, hcases⟩ := ReadWorld.step_cases hs
  rcases hcases with ⟨he, -⟩ | ⟨j, n, -, -, -, -, he, -⟩ | ⟨j, -, -, -, -, he, -⟩ |
    ⟨j, callback, off', len, he, hc', rfl⟩
  · exact absurd he (by simp)
  · exact absurd he (by simp)
  · exact absurd he (by simp)
  · injection he with hij
    subst hij
    rw [hc] at hc'
    injection hc' with hc'
    injection hc' with h1 h2 h3
    subst h1; subst h2; subst h3
    have hrun : (w.take i).runPosted (handle dispatch) (some .readLength) off 5
        = (w.take i).perform (readLength (RosStream.ofBuffer (MemBlock.slice w.reader.mem off 5))) :=
      rfl
    rw [hrun, hsl, readLength_spec, if_pos hacc]
    exact hesc

namespace DriveWorld

/-- What reading should survive. -/
structure Survives (w : DriveWorld τ) : Prop where
  /-- There is a reader to ask for bytes. -/
  reader : w.asyncReader.isSome
  /-- Everything outstanding belongs to it. -/
  current : w.stale = []
  /--
  While the port is open, a port read or a delivery is outstanding on it. That is asked of
  every state and not only where `parameter_callback` has just returned: from a silent state
  any later call that reloads nothing returns with the port open and nothing outstanding.
  -/
  reading : w.escaped = none → w.serial.isSome →
    ∃ reader, w.asyncReader = some reader ∧ Live (w.reading reader)

/--
The condition on a step. A call whose reloads open the port has to find nothing
outstanding and to close the port again; a header too long for the reader must not be run
while the port is open, and no port read may fail then.
-/
def KeepsReading (w : DriveWorld τ) : DriveEvent → Prop
  | .read e => w.serial.isSome → e.isFail = false
      ∧ ∀ reader, w.asyncReader = some reader → ¬Oversized (w.reading reader) e
  | .reconfigure _ outcomes => .closes .opens ∈ outcomes →
      w.serviceIo = [] ∧ outcomes.getLast? ≠ some (.closes .opens)
  | _ => True

/-- While the port is open, the session is at a known place in a packet or silent. -/
def Attached (w : DriveWorld τ) : Prop :=
  w.escaped = none → w.serial.isSome →
    ∃ reader, w.asyncReader = some reader ∧ (OnTrack (w.reading reader) ∨ w.serviceIo = [])

theorem Attached.onTrack {w : DriveWorld τ} (h : w.Attached) (hs : w.Survives)
    (hesc : w.escaped = none) (hopen : w.serial.isSome) :
    ∃ reader, w.asyncReader = some reader ∧ OnTrack (w.reading reader)
      ∧ Live (w.reading reader) := by
  obtain ⟨reader, hreader, hwhere⟩ := h hesc hopen
  obtain ⟨reader', hreader', hlive⟩ := hs.reading hesc hopen
  rw [hreader] at hreader'
  obtain rfl := Option.some.inj hreader'
  rcases hwhere with htrack | hidle
  · exact ⟨reader, hreader, htrack, hlive⟩
  · exact absurd hlive (not_live_of_silent hidle)

/-! ### A call of `parameter_callback` -/

theorem getD_ne_opens_iff (outcomes : List ReloadOutcome) :
    (∀ n < outcomes.length, outcomes.getD n .closeFails ≠ .closes .opens)
      ↔ .closes .opens ∉ outcomes := by
  constructor
  · intro h hmem
    obtain ⟨n, hn, heq⟩ := List.mem_iff_getElem.mp hmem
    exact h n hn (by rw [List.getD_eq_getElem _ _ hn, heq])
  · intro h n hn heq
    rw [List.getD_eq_getElem _ _ hn] at heq
    exact h (heq ▸ List.getElem_mem hn)

theorem getD_last {outcomes : List ReloadOutcome} {n : Nat} (h : outcomes.length = n + 1) :
    outcomes.getLast? = some (outcomes.getD n .closeFails) := by
  rw [List.getLast?_eq_getElem?, List.getD_eq_getElem?_getD, h, Nat.add_sub_cancel,
    List.getElem?_eq_getElem (by omega)]
  rfl

/-- **Everything a call of `parameter_callback` can do to the session.** -/
theorem reconfigure_cases {w w' : DriveWorld τ} {params : List Parameter}
    {outcomes : List ReloadOutcome} (h : w.reconfigure params outcomes = some w') :
    ∃ s : SerialState, (s.readersMade = 0 ↔ .closes .opens ∉ outcomes)
      ∧ ((w' = w.update s ∧ (outcomes = [] → s.serial = w.serial)
          ∧ (outcomes ≠ [] → (s.serial.isSome ↔ outcomes.getLast? = some (.closes .opens))))
        ∨ ∃ e, w' = { w.update s with escaped := some (.thrown e) }) := by
  have hend := SerialState.parameterCallback_reloaded (fun n => outcomes.getD n .closeFails)
    w.config w.serial params
  have hcounts : ∀ s : SerialState, s.Counts (fun n => outcomes.getD n .closeFails) →
      s.reloads = outcomes.length → (s.readersMade = 0 ↔ .closes .opens ∉ outcomes) := by
    intro s hs hlen
    unfold SerialState.Counts at hs
    rw [hs, hlen]
    exact getD_ne_opens_iff outcomes
  unfold reconfigure at h
  dsimp only at h
  generalize SerialState.parameterCallback _ _ params = call at hend h
  obtain ⟨s, _ | result⟩ := call
  · split at h
    · rename_i hlen
      exact ⟨s, hcounts s hend hlen, Or.inr ⟨_, (Option.some.inj h).symm⟩⟩
    · exact absurd h (by simp)
  · split at h
    · rename_i hlen
      have hrel : s.Reloaded (fun n => outcomes.getD n .closeFails) w.serial := hend
      refine ⟨s, hcounts s hrel.counts hlen, Or.inl ⟨(Option.some.inj h).symm, ?_, ?_⟩⟩
      · intro hnil
        exact hrel.untouched (by rw [hlen, hnil]; rfl)
      · intro hne
        obtain ⟨n, hn⟩ := Nat.exists_eq_succ_of_ne_zero
          (fun h0 => hne (List.eq_nil_of_length_eq_zero h0))
        rw [hrel.last n (hlen.trans hn), getD_last hn, Option.some.injEq]
    · exact absurd h (by simp)

theorem update_of_none {w : DriveWorld τ} {s : SerialState} (h : s.readersMade = 0) :
    w.update s = { w with config := s.config, serial := s.serial } := if_pos h

theorem update_of_some {w : DriveWorld τ} {s : SerialState} (h : s.readersMade ≠ 0) :
    w.update s = { w with config := s.config, serial := s.serial }.replaceReader := if_neg h

/--
A call whose reloads open no port leaves the reader alone. If the port is open afterwards
nothing has been reloaded.
-/
theorem reconfigure_kept {w w' : DriveWorld τ} {params : List Parameter}
    {outcomes : List ReloadOutcome} (h : w.reconfigure params outcomes = some w')
    (hno : .closes .opens ∉ outcomes) :
    w'.asyncReader = w.asyncReader ∧ w'.serviceIo = w.serviceIo ∧ w'.stale = w.stale
      ∧ (w'.escaped = none → w'.serial.isSome → outcomes = [] ∧ w.serial.isSome
        ∧ ∀ reader, w'.reading reader = w.reading reader) := by
  obtain ⟨s, hmade, ⟨rfl, hsame, hlast⟩ | ⟨e, rfl⟩⟩ := reconfigure_cases h
  · rw [update_of_none (hmade.mpr hno)]
    refine ⟨rfl, rfl, rfl, ?_⟩
    intro _ hopen
    by_cases hnil : outcomes = []
    · refine ⟨hnil, ?_, fun _ => rfl⟩
      rw [← hsame hnil]
      exact hopen
    · exact absurd (List.mem_of_getLast? ((hlast hnil).mp hopen)) hno
  · rw [update_of_none (hmade.mpr hno)]
    refine ⟨rfl, rfl, rfl, ?_⟩
    intro hesc
    exact absurd hesc (by simp)

/--
A call one of whose reloads opens the port leaves a new reader with nothing outstanding.
The last reload decides whether the port is still open when it returns.
-/
theorem reconfigure_replaced {w w' : DriveWorld τ} {params : List Parameter}
    {outcomes : List ReloadOutcome} (h : w.reconfigure params outcomes = some w')
    (hopens : .closes .opens ∈ outcomes) :
    w'.asyncReader = some (.new readerCapacity) ∧ w'.serviceIo = []
      ∧ w'.stale = w.stale ++ w.serviceIo
      ∧ ((∃ e, w'.escaped = some (.thrown e))
        ∨ w'.escaped = w.escaped
          ∧ (w'.serial.isSome ↔ outcomes.getLast? = some (.closes .opens))) := by
  obtain ⟨s, hmade, ⟨rfl, -, hlast⟩ | ⟨e, rfl⟩⟩ := reconfigure_cases h
  · rw [update_of_some (mt hmade.mp (not_not.mpr hopens))]
    exact ⟨rfl, rfl, rfl, Or.inr ⟨rfl, hlast (List.ne_nil_of_mem hopens)⟩⟩
  · rw [update_of_some (mt hmade.mp (not_not.mpr hopens))]
    exact ⟨rfl, rfl, rfl, Or.inl ⟨e, rfl⟩⟩

/-- **A port that `parameter_callback` reopens is not read from.** -/
theorem reopened_silent {w w' : DriveWorld τ} {params : List Parameter}
    {outcomes : List ReloadOutcome} (h : w.reconfigure params outcomes = some w')
    (hesc : w'.escaped = none) (hreload : outcomes ≠ []) (hopen : w'.serial.isSome) :
    w'.asyncReader = some (.new readerCapacity) ∧ w'.serviceIo = []
      ∧ w'.stale = w.stale ++ w.serviceIo := by
  by_cases hopens : .closes .opens ∈ outcomes
  · obtain ⟨hreader, hio, hstale, -⟩ := reconfigure_replaced h hopens
    exact ⟨hreader, hio, hstale⟩
  · obtain ⟨-, -, -, hkept⟩ := reconfigure_kept h hopens
    exact absurd (hkept hesc hopen).1 hreload

/--
**One call of `parameter_callback`.** Reading survives it exactly if no reload opens the
port, or if nothing was outstanding and the port is closed again.
-/
theorem reconfigure_survives {w w' : DriveWorld τ} {params : List Parameter}
    {outcomes : List ReloadOutcome} (hs : w.Survives) (hesc : w.escaped = none)
    (h : w.reconfigure params outcomes = some w') :
    (w.KeepsReading (.reconfigure params outcomes) → w'.Survives)
      ∧ ((∀ e, w'.escaped ≠ some (.thrown e)) → w'.Survives →
          w.KeepsReading (.reconfigure params outcomes)) := by
  by_cases hopens : .closes .opens ∈ outcomes
  · obtain ⟨hreader, hio', hstale, hend⟩ := reconfigure_replaced h hopens
    constructor
    · intro hkeep
      obtain ⟨hio, hclosed⟩ := hkeep hopens
      refine ⟨by rw [hreader]; rfl, by rw [hstale, hs.current, hio]; rfl, ?_⟩
      intro hesc' hopen
      rcases hend with ⟨e, he⟩ | ⟨-, hlast⟩
      · rw [he] at hesc'
        exact absurd hesc' (by simp)
      · exact absurd (hlast.mp hopen) hclosed
    · intro hret hs' _
      rcases hend with ⟨e, he⟩ | ⟨he, hlast⟩
      · exact absurd he (hret e)
      · have hcurrent := hs'.current
        rw [hstale] at hcurrent
        refine ⟨(List.append_eq_nil_iff.mp hcurrent).2, ?_⟩
        -- an open port would have to be read from, and nothing is outstanding on it
        intro hlast'
        obtain ⟨reader, -, hlive⟩ := hs'.reading (he.trans hesc) (hlast.mpr hlast')
        exact not_live_of_silent (w := w'.reading reader) hio' hlive
  · obtain ⟨hreader, -, hstale, hkept⟩ := reconfigure_kept h hopens
    refine ⟨fun _ => ?_, fun _ _ hmem => absurd hmem hopens⟩
    refine ⟨by rw [hreader]; exact hs.reader, by rw [hstale]; exact hs.current, ?_⟩
    intro hesc' hopen'
    obtain ⟨-, hopen, hsame⟩ := hkept hesc' hopen'
    obtain ⟨reader, hr, hlive⟩ := hs.reading hesc hopen
    rw [hreader]
    refine ⟨reader, hr, ?_⟩
    rw [hsame]
    exact hlive

theorem reconfigure_attached {w w' : DriveWorld τ} {params : List Parameter}
    {outcomes : List ReloadOutcome} (ha : w.Attached) (hesc : w.escaped = none)
    (h : w.reconfigure params outcomes = some w') : w'.Attached := by
  intro hesc' hopen'
  by_cases hopens : .closes .opens ∈ outcomes
  · obtain ⟨hreader, hio, -⟩ := reconfigure_replaced h hopens
    exact ⟨_, hreader, Or.inr hio⟩
  · obtain ⟨hreader, hio, -, hkept⟩ := reconfigure_kept h hopens
    obtain ⟨-, hopen, hsame⟩ := hkept hesc' hopen'
    obtain ⟨reader, hr, hwhere⟩ := ha hesc hopen
    rw [hreader, hio]
    refine ⟨reader, hr, ?_⟩
    rw [hsame]
    exact hwhere

/-! ### The operations of the reader -/

theorem read_some {w w' : DriveWorld τ} {e : PortEvent}
    (h : w.step dispatch (.read e) = some w') :
    ∃ reader r, w.asyncReader = some reader
      ∧ (w.reading reader).step (handle dispatch) e = some r ∧ w' = w.absorb r := by
  unfold step at h
  dsimp only at h
  split at h
  · exact absurd h (by simp)
  · rename_i reader hreader
    obtain ⟨r, hr, habs⟩ := Option.map_eq_some_iff.mp h
    exact ⟨reader, r, hreader, hr, habs.symm⟩

theorem quiet_of_not_fail {r r' : ReadWorld Handler (Session τ)} {e : PortEvent}
    (he : e.isFail = false) (h : r.step (handle dispatch) e = some r') :
    r.quietStep (handle dispatch) e = some r' := by
  unfold ReadWorld.quietStep
  rw [if_neg (by simp [he])]
  exact h

theorem read_attached {w w' : DriveWorld τ} {e : PortEvent} (ha : w.Attached)
    (h : w.step dispatch (.read e) = some w') : w'.Attached := by
  obtain ⟨reader, r, hreader, hr, rfl⟩ := read_some h
  have hesc : w.escaped = none := (ReadWorld.step_cases hr).1
  intro _ hopen
  refine ⟨r.reader, rfl, ?_⟩
  obtain ⟨reader', hreader', hwhere⟩ := ha hesc hopen
  rw [hreader] at hreader'
  obtain rfl := Option.some.inj hreader'
  rcases hwhere with htrack | hidle
  · cases hfail : e.isFail with
    | true => exact Or.inr (fail_silent htrack hfail hr).1
    | false =>
        exact Or.inl (onTrack_supplied (onTrack_step htrack (quiet_of_not_fail hfail hr)) _ _)
  · exact (idle_stuck hidle rfl hr).elim

/-- **One operation of the reader.** -/
theorem read_survives {w w' : DriveWorld τ} {e : PortEvent} (ha : w.Attached) (hs : w.Survives)
    (h : w.step dispatch (.read e) = some w') :
    w'.Survives ↔ w.KeepsReading (.read e) := by
  obtain ⟨reader, r, hreader, hr, rfl⟩ := read_some h
  have hesc : w.escaped = none := (ReadWorld.step_cases hr).1
  cases hopen : w.serial.isSome with
  | false =>
      -- on a closed port there is nothing to go on reading
      refine iff_of_true ⟨rfl, hs.current, ?_⟩ ?_
      · intro _ hopen'
        exact absurd (hopen.symm.trans hopen') (by simp)
      · intro hopen'
        exact absurd (hopen.symm.trans hopen') (by simp)
  | true =>
      obtain ⟨reader', hreader', htrack, hlive⟩ := ha.onTrack hs hesc hopen
      rw [hreader] at hreader'
      obtain rfl := Option.some.inj hreader'
      have hkeep : w.KeepsReading (.read e)
          ↔ e.isFail = false ∧ ¬Oversized (w.reading reader) e := by
        constructor
        · intro hk
          exact ⟨(hk hopen).1, (hk hopen).2 reader hreader⟩
        · intro hboth _
          obtain ⟨hfail, hbig⟩ := hboth
          refine ⟨hfail, ?_⟩
          intro reader' hreader'
          rw [hreader] at hreader'
          obtain rfl := Option.some.inj hreader'
          exact hbig
      rw [hkeep]
      cases hfail : e.isFail with
      | true =>
          obtain ⟨hio, hesc'⟩ := fail_silent htrack hfail hr
          refine iff_of_false ?_ (by simp)
          intro hs'
          obtain ⟨reader', -, hlive'⟩ := hs'.reading hesc' hopen
          exact not_live_of_silent (w := (w.absorb r).reading reader') hio hlive'
      | false =>
          have hq := quiet_of_not_fail hfail hr
          by_cases hesc' : r.escaped = none
          · have hstep := live_step htrack hlive hesc' hq
            constructor
            · intro hs'
              obtain ⟨reader', hreader', hlive'⟩ := hs'.reading hesc' hopen
              obtain rfl := Option.some.inj hreader'
              exact ⟨rfl, hstep.mp hlive'⟩
            · intro hkept
              refine ⟨rfl, hs.current, ?_⟩
              intro _ _
              exact ⟨r.reader, rfl, hstep.mpr hkept.2⟩
          · refine iff_of_true ⟨rfl, hs.current, ?_⟩ ⟨rfl, ?_⟩
            · intro hnone
              exact absurd hnone hesc'
            · intro hbig
              exact hesc' (oversized_returns hbig hr)

/-! ### Whole runs -/

theorem arrive_some {w w' : DriveWorld τ} {chunk : List UInt8}
    (h : w.step dispatch (.arrive chunk) = some w') :
    w.escaped = none ∧ w' = { w with arrived := w.arrived ++ chunk } := by
  unfold step at h
  dsimp only at h
  split at h
  · rename_i hen
    exact ⟨hen.1, (Option.some.inj h).symm⟩
  · exact absurd h (by simp)

theorem stale_some {w w' : DriveWorld τ} {i : Nat}
    (h : w.step dispatch (.stale i) = some w') :
    w.escaped = none ∧ i < w.stale.length ∧ w'.escaped = some destroyedReader := by
  unfold step at h
  dsimp only at h
  split at h
  · rename_i hen
    obtain rfl := Option.some.inj h
    exact ⟨hen.1, hen.2, rfl⟩
  · exact absurd h (by simp)

theorem reconfigure_some {w w' : DriveWorld τ} {params : List Parameter}
    {outcomes : List ReloadOutcome} (h : w.step dispatch (.reconfigure params outcomes) = some w') :
    w.escaped = none ∧ w.reconfigure params outcomes = some w' := by
  unfold step at h
  dsimp only at h
  split at h
  · rename_i hesc
    exact ⟨hesc, h⟩
  · exact absurd h (by simp)

theorem step_escaped {w w' : DriveWorld τ} {e : DriveEvent} (h : w.step dispatch e = some w') :
    w.escaped = none := by
  cases e with
  | arrive chunk => exact (arrive_some h).1
  | read e =>
      obtain ⟨reader, r, -, hr, -⟩ := read_some h
      exact (ReadWorld.step_cases hr).1
  | stale i => exact (stale_some h).1
  | reconfigure params outcomes => exact (reconfigure_some h).1

theorem step_attached {w w' : DriveWorld τ} {e : DriveEvent} (ha : w.Attached)
    (h : w.step dispatch e = some w') : w'.Attached := by
  cases e with
  | arrive chunk =>
      obtain ⟨hesc, rfl⟩ := arrive_some h
      intro _ hopen
      obtain ⟨reader, hreader, htrack | hidle⟩ := ha hesc hopen
      · exact ⟨reader, hreader, Or.inl (onTrack_supplied htrack _ _)⟩
      · exact ⟨reader, hreader, Or.inr hidle⟩
  | read e => exact read_attached ha h
  | stale i =>
      intro hesc'
      rw [(stale_some h).2.2] at hesc'
      exact absurd hesc' (by simp)
  | reconfigure params outcomes =>
      obtain ⟨hesc, h⟩ := reconfigure_some h
      exact reconfigure_attached ha hesc h

/-- **One step of a session that is reading.** -/
theorem step_survives {w w' : DriveWorld τ} {e : DriveEvent} (ha : w.Attached) (hs : w.Survives)
    (h : w.step dispatch e = some w') :
    (w.KeepsReading e → w'.Survives)
      ∧ ((∀ x, w'.escaped ≠ some (.thrown x)) → w'.Survives → w.KeepsReading e) := by
  cases e with
  | arrive chunk =>
      obtain ⟨hesc, rfl⟩ := arrive_some h
      refine ⟨fun _ => ⟨hs.reader, hs.current, ?_⟩, fun _ _ => trivial⟩
      intro _ hopen
      exact hs.reading hesc hopen
  | read e =>
      have hiff := read_survives ha hs h
      exact ⟨hiff.mpr, fun _ => hiff.mp⟩
  | stale i =>
      have hlt := (stale_some h).2.1
      rw [hs.current] at hlt
      exact absurd hlt (by simp)
  | reconfigure params outcomes =>
      obtain ⟨hesc, h⟩ := reconfigure_some h
      exact reconfigure_survives hs hesc h

theorem new_fails {tables : τ} {config : SerialConfig} {w : DriveWorld τ}
    (h : new tables config .fails = .ok w) : w.asyncReader = none ∧ w.escaped = some nullReader := by
  obtain rfl := Except.ok.inj h
  exact ⟨rfl, rfl⟩

theorem new_opens_eq (tables : τ) (config : SerialConfig) : ∃ w : DriveWorld τ,
    new tables config .opens = .ok (w.absorb (RosserialServer.startRead tables []))
      ∧ w.stale = [] := ⟨_, rfl, rfl⟩

theorem new_opens {tables : τ} {config : SerialConfig} {w : DriveWorld τ}
    (h : new tables config .opens = .ok w) (dispatch : Dispatch τ) : w.Survives ∧ w.Attached := by
  obtain ⟨w', hnew, hstale⟩ := new_opens_eq tables config
  rw [hnew] at h
  obtain rfl := Except.ok.inj h
  have hlive := startRead_live dispatch tables []
  have htrack := startRead_onTrack tables []
  generalize RosserialServer.startRead tables [] = r at hlive htrack ⊢
  refine ⟨⟨rfl, hstale, ?_⟩, ?_⟩
  · intro _ _
    exact ⟨r.reader, rfl, hlive⟩
  · intro _ _
    exact ⟨r.reader, rfl, Or.inl (onTrack_supplied htrack _ _)⟩

end DriveWorld

/--
**Reading survives exactly as long as no port is reopened.** It survives a run if the
first `open_serial` opens the port and every step keeps the session reading, and in a run
that no exception ends only then.
-/
theorem reading_survives_iff (dispatch : Dispatch τ) (tables : τ) (config : SerialConfig)
    (opening : OpenOutcome) (es : List DriveEvent) (w₀ w : DriveWorld τ)
    (hnew : DriveWorld.new tables config opening = .ok w₀)
    (hx : Lts.exec (DriveWorld.step dispatch) w₀ es = some w) :
    (opening = .opens → Lts.Takes (DriveWorld.step dispatch) DriveWorld.KeepsReading w₀ es →
        Lts.Visits (DriveWorld.step dispatch) DriveWorld.Survives w₀ es)
      ∧ ((∀ e, w.escaped ≠ some (.thrown e)) →
        Lts.Visits (DriveWorld.step dispatch) DriveWorld.Survives w₀ es →
        opening = .opens ∧ Lts.Takes (DriveWorld.step dispatch) DriveWorld.KeepsReading w₀ es) := by
  constructor
  · intro hopening htakes
    subst hopening
    obtain ⟨hs, ha⟩ := DriveWorld.new_opens hnew dispatch
    refine Lts.visits_of_takes (I := DriveWorld.Attached) ?_ ?_ ha hs htakes
    · intro s e s' hI h
      exact DriveWorld.step_attached hI h
    · intro s e s' hI hP hQ h
      exact (DriveWorld.step_survives hI hP h).1 hQ
  · intro hret hvisits
    cases opening with
    | fails =>
        have hreader := hvisits.here.reader
        rw [(DriveWorld.new_fails hnew).1] at hreader
        exact absurd hreader (by simp)
    | optionThrows i e => exact absurd hnew (by simp [DriveWorld.new, SerialState.openSerial])
    | opens =>
        refine ⟨rfl, ?_⟩
        obtain ⟨hs, ha⟩ := DriveWorld.new_opens hnew dispatch
        refine (Lts.visits_iff_takes (I := DriveWorld.Attached)
          (K := fun w => ∀ e, w.escaped ≠ some (.thrown e)) ?_ ?_ ?_ ha hs hx hret).mp hvisits
        · intro s e s' hI h
          exact DriveWorld.step_attached hI h
        · intro s e s' h _ x hesc
          rw [DriveWorld.step_escaped h] at hesc
          exact absurd hesc (by simp)
        · intro s e s' hI hP hK h
          have hstep := DriveWorld.step_survives hI hP h
          exact ⟨hstep.2 hK, hstep.1⟩

set_option maxRecDepth 8000 in
/-- A byte is received and a baud rate of zero is refused. -/
theorem reading_survives_refusal :
    ∃ w₀ w, DriveWorld.new () ⟨"/tmp/ttyV0", 115200⟩ .opens = .ok w₀
      ∧ Lts.exec (DriveWorld.step ignoring) w₀ [.arrive [0xFF], .read (.transfer 0 1),
          .reconfigure [⟨"baud", .integer 0⟩] []] = some w
      ∧ w.serial.isSome = true
      ∧ Lts.Visits (DriveWorld.step ignoring) DriveWorld.Survives w₀ [.arrive [0xFF],
          .read (.transfer 0 1), .reconfigure [⟨"baud", .integer 0⟩] []] := by
  have hrun : ∃ w₀ w, DriveWorld.new () ⟨"/tmp/ttyV0", 115200⟩ .opens = .ok w₀
      ∧ Lts.exec (DriveWorld.step ignoring) w₀ [.arrive [0xFF], .read (.transfer 0 1),
          .reconfigure [⟨"baud", .integer 0⟩] []] = some w
      ∧ w.serial.isSome = true := ⟨_, _, rfl, rfl, rfl⟩
  obtain ⟨w₀, w, hnew, hx, hopen⟩ := hrun
  refine ⟨w₀, w, hnew, hx, hopen, (reading_survives_iff ignoring () _ _ _ w₀ w hnew hx).1 rfl ?_⟩
  refine ⟨trivial, fun _ _ => ⟨fun _ => ⟨rfl, ?_⟩, fun _ _ => ⟨?_, fun _ _ => trivial⟩⟩⟩
  · intro reader _ hbig
    obtain ⟨i, off, he, -⟩ := hbig
    exact absurd he (by simp)
  · intro hopens
    exact absurd hopens (by simp)

set_option maxRecDepth 8000 in
/-- The baud rate is changed to 9600, and the port reopens. -/
theorem reading_lost_on_baud :
    ∃ w₀ w, DriveWorld.new () ⟨"/tmp/ttyV0", 115200⟩ .opens = .ok w₀
      ∧ Lts.exec (DriveWorld.step ignoring) w₀
          [.reconfigure [⟨"baud", .integer 9600⟩] [.closes .opens]] = some w
      ∧ w.escaped = none ∧ w.serial = some ⟨"/tmp/ttyV0", serialOptions 9600⟩
      ∧ w.serviceIo = [] ∧ w.stale = [.asyncRead 0 512 1] ∧ ¬w.Survives := by
  have hrun : ∃ w₀ w, DriveWorld.new () ⟨"/tmp/ttyV0", 115200⟩ .opens = .ok w₀
      ∧ Lts.exec (DriveWorld.step ignoring) w₀
          [.reconfigure [⟨"baud", .integer 9600⟩] [.closes .opens]] = some w
      ∧ w.escaped = none ∧ w.serial = some ⟨"/tmp/ttyV0", serialOptions 9600⟩
      ∧ w.serviceIo = [] ∧ w.stale = [.asyncRead 0 512 1] :=
    ⟨_, _, rfl, rfl, rfl, rfl, rfl, rfl⟩
  obtain ⟨w₀, w, hnew, hx, hesc, hserial, hio, hstale⟩ := hrun
  refine ⟨w₀, w, hnew, hx, hesc, hserial, hio, hstale, ?_⟩
  intro hs
  have hcurrent := hs.current
  rw [hstale] at hcurrent
  exact absurd hcurrent (by simp)

end RosserialServer
