import RosserialServer.Lib.Lts
import RosserialServer.Session.Reconfigure

/-!
# What a list of parameters comes to

`parameter_callback` takes its parameters one after the other, and what one of them has
changed stays changed whatever becomes of the next. `course` says, from the parameters and
the outcomes of the reloads alone, which settings are granted and how the list ends, and
`parameterCallback_course` that the loop does just that: the granted settings are applied
to `serial_config_`, and the port is open with whatever the last reload opened it for.

A refused list has changed nothing exactly if what had been granted before makes no
difference (`rejected_changes_nothing_iff`): the old settings the code goes back to are
those of the last parameter, not those of the call.

A list throws at the first parameter that makes it throw, if all before it are granted
(`course_throws_iff`): its value is of another type, or `set_option` throws in a reload.

Whoever asked for a setting finds it in `serial_config_` after every call exactly if
nothing throws and the baud rate asked for is an `int` (`settings_agree_iff`).
-/

namespace RosserialServer

open SerialState

/-! ## The abstract course of a call -/

/-- What a parameter of this session can change. -/
inductive Setting where
  | baud (baud : Int32)
  | port (port : String)
  deriving DecidableEq, Repr

def Setting.apply (config : SerialConfig) : Setting → SerialConfig
  | baud b => { config with baud := b }
  | port p => { config with port := p }

/-- The reason given when the port does not open with the setting. -/
def Setting.failure : Setting → String
  | baud _ => "Setting buad failed"
  | port _ => "Setting port failed"

/-- What a parameter asks for. -/
inductive Request where
  /-- It is not one of this session's. -/
  | foreign
  /-- Reading its value throws. -/
  | illTyped (e : StdException)
  | invalid (reason : String)
  | change (x : Setting)
  deriving DecidableEq, Repr

def Parameter.request (param : Parameter) : Request :=
  if param.name = "baud" then
    match param.asInt with
    | .error e => .illTyped e
    | .ok value =>
        if value.toInt32 ≤ 0 then .invalid "The baud value is wrong !"
        else .change (.baud value.toInt32)
  else if param.name = "port" then
    match param.asString with
    | .error e => .illTyped e
    | .ok value => if value = "" then .invalid "The port name is null !" else .change (.port value)
  else .foreign

/-- What `reload_hardware` returns. -/
def ReloadOutcome.result : ReloadOutcome → Except StdException Bool
  | closeFails | closes .fails => .ok false
  | closes (.optionThrows _ e) => .error e
  | closes .opens => .ok true

/-- How a list of parameters ends. -/
inductive Ending where
  /-- Nothing was refused. -/
  | granted
  | refused (reason : String)
  | throws (e : StdException)
  deriving DecidableEq, Repr

def Ending.result : Ending → Except StdException SetParametersResult
  | granted => .ok ⟨true, "success"⟩
  | refused reason => .ok ⟨false, reason⟩
  | throws e => .error e

/-- The settings granted, and how the list ends, if `n` reloads have been made before. -/
def course (outcome : Nat → ReloadOutcome) : Nat → List Parameter → List Setting × Ending
  | _, [] => ([], .granted)
  | n, param :: params =>
      match param.request with
      | .foreign => course outcome n params
      | .illTyped e => ([], .throws e)
      | .invalid reason => ([], .refused reason)
      | .change x =>
          match (outcome n).result, (outcome (n + 1)).result with
          | .ok true, _ =>
              let rest := course outcome (n + 1) params
              (x :: rest.1, rest.2)
          | .error e, _ => ([], .throws e)
          -- the second reload is the one that goes back to the old settings
          | .ok false, .error e => ([], .throws e)
          | .ok false, .ok _ => ([], .refused x.failure)

/-- The configuration after the settings have been made in turn. -/
def SerialConfig.applyAll (config : SerialConfig) (xs : List Setting) : SerialConfig :=
  xs.foldl Setting.apply config

/-- A port opened and configured with the settings of `config`. -/
def SerialConfig.opened (config : SerialConfig) : OpenPort :=
  ⟨config.port, serialOptions config.baud⟩

/-! ## The callback follows it -/

namespace SerialState

variable {outcome : Nat → ReloadOutcome}

theorem reloadHardware_result (outcome : Nat → ReloadOutcome) (s : SerialState) (port : String)
    (baud : Int32) :
    (s.reloadHardware outcome port baud).2 = (outcome s.reloads).result := by
  unfold reloadHardware
  rcases outcome s.reloads with _ | _ | _ | _ <;> rfl

/-- **One reload.** -/
theorem reloadHardware_ok {s t : SerialState} {port : String} {baud : Int32} {b : Bool}
    (h : s.reloadHardware outcome port baud = (t, .ok b)) :
    (outcome s.reloads).result = .ok b ∧ t.config = s.config ∧ t.reloads = s.reloads + 1
      ∧ t.serial = if b then some ⟨port, serialOptions baud⟩ else none := by
  have hres := reloadHardware_result outcome s port baud
  rw [h] at hres
  unfold reloadHardware at h
  cases hout : outcome s.reloads with
  | closeFails =>
      rw [hout] at h
      obtain ⟨rfl, hb⟩ := Prod.mk.inj h
      obtain rfl := Except.ok.inj hb
      exact ⟨rfl, rfl, rfl, rfl⟩
  | closes opening =>
      rw [hout] at h
      cases opening with
      | fails =>
          obtain ⟨rfl, hb⟩ := Prod.mk.inj h
          obtain rfl := Except.ok.inj hb
          exact ⟨rfl, rfl, rfl, rfl⟩
      | optionThrows i e => exact absurd (Prod.mk.inj h).2 (by simp)
      | opens =>
          obtain ⟨rfl, hb⟩ := Prod.mk.inj h
          obtain rfl := Except.ok.inj hb
          exact ⟨rfl, rfl, rfl, rfl⟩

theorem reloadHardware_error {s t : SerialState} {port : String} {baud : Int32} {e : StdException}
    (h : s.reloadHardware outcome port baud = (t, .error e)) :
    (outcome s.reloads).result = .error e ∧ t.config = s.config := by
  have hres := reloadHardware_result outcome s port baud
  rw [h] at hres
  refine ⟨hres.symm, ?_⟩
  unfold reloadHardware at h
  rcases hout : outcome s.reloads with _ | _ | ⟨i, e'⟩ | _ <;> rw [hout] at h
  · exact absurd (Prod.mk.inj h).2 (by simp)
  · exact absurd (Prod.mk.inj h).2 (by simp)
  · obtain ⟨rfl, -⟩ := Prod.mk.inj h
    rfl
  · exact absurd (Prod.mk.inj h).2 (by simp)

/-- What new settings do that were tried. -/
inductive Tried (outcome : Nat → ReloadOutcome) (s : SerialState) (new : SerialConfig)
    (reason : String) : SerialState → Except StdException (Option SetParametersResult) → Prop where
  | granted {t : SerialState} (hres : (outcome s.reloads).result = .ok true)
      (hconfig : t.config = new) (hreloads : t.reloads = s.reloads + 1)
      (hserial : t.serial = some new.opened) : Tried outcome s new reason t (.ok none)
  /-- The port is open again with the settings it had before, or closed. -/
  | refused {t : SerialState} {b : Bool} (hres : (outcome s.reloads).result = .ok false)
      (hback : (outcome (s.reloads + 1)).result = .ok b) (hconfig : t.config = s.config)
      (hreloads : t.reloads = s.reloads + 2)
      (hserial : t.serial = if b then some s.config.opened else none) :
      Tried outcome s new reason t (.ok (some ⟨false, reason⟩))
  | throws {t : SerialState} {e : StdException} (hres : (outcome s.reloads).result = .error e)
      (hconfig : t.config = s.config) : Tried outcome s new reason t (.error e)
  | throwsBack {t : SerialState} {e : StdException} (hres : (outcome s.reloads).result = .ok false)
      (hback : (outcome (s.reloads + 1)).result = .error e) (hconfig : t.config = s.config) :
      Tried outcome s new reason t (.error e)

theorem trySettings_tried (outcome : Nat → ReloadOutcome) (s : SerialState) (new : SerialConfig)
    (reason : String) :
    Tried outcome s new reason (s.trySettings outcome new reason).1
      (s.trySettings outcome new reason).2 := by
  unfold trySettings
  rcases hr : s.reloadHardware outcome new.port new.baud with ⟨t, e | b⟩
  · obtain ⟨hres, hconfig⟩ := reloadHardware_error hr
    exact .throws hres hconfig
  · obtain ⟨hres, hconfig, hreloads, hserial⟩ := reloadHardware_ok hr
    cases b with
    | true => exact .granted hres rfl hreloads hserial
    | false =>
        dsimp only
        rcases hr' : t.reloadHardware outcome t.config.port t.config.baud with ⟨u, e | b⟩
        · obtain ⟨hback, hconfig'⟩ := reloadHardware_error hr'
          rw [hreloads] at hback
          exact .throwsBack hres hback (hconfig'.trans hconfig)
        · obtain ⟨hback, hconfig', hreloads', hserial'⟩ := reloadHardware_ok hr'
          rw [hreloads] at hback hreloads'
          rw [hconfig] at hserial'
          exact .refused hres hback (hconfig'.trans hconfig) hreloads' hserial'

theorem setParameter_request (s : SerialState) (param : Parameter) :
    s.setParameter outcome param = match param.request with
      | .foreign => (s, .ok none)
      | .illTyped e => (s, .error e)
      | .invalid reason => (s, .ok (some ⟨false, reason⟩))
      | .change x => s.trySettings outcome (x.apply s.config) x.failure := by
  unfold setParameter Parameter.request
  split
  · unfold baudParameter
    cases param.asInt with
    | error e => rfl
    | ok value =>
        dsimp only
        split <;> rfl
  · split
    · unfold portParameter
      cases param.asString with
      | error e => rfl
      | ok value =>
          dsimp only
          split <;> rfl
    · rfl

/-- What the reloads between `s` and `t` have left. -/
structure Settled (outcome : Nat → ReloadOutcome) (s t : SerialState) : Prop where
  reloads : s.reloads ≤ t.reloads
  untouched : t.reloads = s.reloads → t.serial = s.serial ∧ t.config = s.config
  /-- If the last of them has opened the port, it is open with the settings of `t`. -/
  last : ∀ n, s.reloads ≤ n → t.reloads = n + 1 →
    t.serial = if (outcome n).result = .ok true then some t.config.opened else none

theorem Settled.refl (outcome : Nat → ReloadOutcome) (s : SerialState) : s.Settled outcome s := by
  refine ⟨Nat.le_refl _, fun _ => ⟨rfl, rfl⟩, ?_⟩
  intro n hle hn
  omega

/-- What follows a granted setting is settled from before it. -/
theorem Settled.of_granted {s t u : SerialState} (h : t.Settled outcome u)
    (hres : (outcome s.reloads).result = .ok true) (hreloads : t.reloads = s.reloads + 1)
    (hserial : t.serial = some t.config.opened) : s.Settled outcome u := by
  have hle := h.reloads
  refine ⟨by omega, ?_, ?_⟩
  · intro hu
    omega
  · intro n hn hu
    by_cases hlt : t.reloads ≤ n
    · exact h.last n hlt hu
    · -- the granted setting was the last to be reloaded for
      obtain rfl : n = s.reloads := by omega
      obtain ⟨hsame, hconfig⟩ := h.untouched (by omega)
      rw [hsame, hserial, hconfig, if_pos hres]

/-- A refused setting is settled whether or not its second reload opens the port. -/
theorem Settled.of_refused {s t : SerialState} {b : Bool}
    (hback : (outcome (s.reloads + 1)).result = .ok b) (hconfig : t.config = s.config)
    (hreloads : t.reloads = s.reloads + 2)
    (hserial : t.serial = if b then some s.config.opened else none) : s.Settled outcome t := by
  refine ⟨by omega, ?_, ?_⟩
  · intro ht
    omega
  · intro n _ hn
    obtain rfl : n = s.reloads + 1 := by omega
    rw [hserial, hback, hconfig]
    cases b <;> rfl

/--
**The callback takes the course of its list.** The configuration is the old one with the
granted settings applied, also when the call throws.
-/
theorem parameterCallback_course (outcome : Nat → ReloadOutcome) (s : SerialState)
    (params : List Parameter) :
    (s.parameterCallback outcome params).1.config
        = s.config.applyAll (course outcome s.reloads params).1
      ∧ (s.parameterCallback outcome params).2 = (course outcome s.reloads params).2.result
      ∧ ((∀ e, (course outcome s.reloads params).2 ≠ .throws e) →
        s.Settled outcome (s.parameterCallback outcome params).1) := by
  induction params generalizing s with
  | nil => exact ⟨rfl, rfl, fun _ => .refl outcome s⟩
  | cons param params ih =>
      rw [parameterCallback, course, setParameter_request]
      cases param.request with
      | foreign => exact ih s
      | illTyped e => exact ⟨rfl, rfl, fun hret => absurd rfl (hret e)⟩
      | invalid reason => exact ⟨rfl, rfl, fun _ => .refl outcome s⟩
      | change x =>
          dsimp only
          have htried := trySettings_tried outcome s (x.apply s.config) x.failure
          rcases hr : s.trySettings outcome (x.apply s.config) x.failure with ⟨t, r⟩
          rw [hr] at htried
          cases htried with
          | granted hres hconfig hreloads hserial =>
              obtain ⟨hfold, hend, hsettled⟩ := ih t
              rw [hreloads] at hfold hend hsettled
              rw [hres]
              dsimp only
              refine ⟨?_, hend, ?_⟩
              · rw [hfold, hconfig]
                rfl
              · intro hret
                exact (hsettled hret).of_granted hres hreloads (by rw [hserial, hconfig])
          | refused hres hback hconfig hreloads hserial =>
              rw [hres, hback]
              exact ⟨hconfig, rfl, fun _ => .of_refused hback hconfig hreloads hserial⟩
          | throws hres hconfig =>
              rw [hres]
              exact ⟨hconfig, rfl, fun hret => absurd rfl (hret _)⟩
          | throwsBack hres hback hconfig =>
              rw [hres, hback]
              exact ⟨hconfig, rfl, fun hret => absurd rfl (hret _)⟩

end SerialState

/-! ## Rejected lists -/

theorem ReloadOutcome.result_true {r : ReloadOutcome} : r.result = .ok true ↔ r = .closes .opens := by
  rcases r with _ | _ | ⟨i, e⟩ | _ <;> simp [ReloadOutcome.result]

/-- From `s` to `t` nothing has changed. -/
structure ChangedNothing (outcome : Nat → ReloadOutcome) (s t : SerialState) : Prop where
  config : t.config = s.config
  untouched : t.reloads = s.reloads → t.serial = s.serial
  /-- If the last reload has opened the port, it is open with the old settings. -/
  reopened : ∀ n, s.reloads ≤ n → t.reloads = n + 1 → outcome n = .closes .opens →
    t.serial = some s.config.opened

/--
**A rejected list has changed nothing exactly if the settings granted before make no
difference.**
-/
theorem rejected_changes_nothing_iff (outcome : Nat → ReloadOutcome) (s t : SerialState)
    (params : List Parameter) (reason : String)
    (h : s.parameterCallback outcome params = (t, .ok ⟨false, reason⟩)) :
    ChangedNothing outcome s t
      ↔ s.config.applyAll (course outcome s.reloads params).1 = s.config := by
  obtain ⟨hfold, hend, hsettled⟩ := parameterCallback_course outcome s params
  rw [h] at hfold hend hsettled
  dsimp only at hfold hend hsettled
  rw [← hfold]
  have hret : ∀ e, (course outcome s.reloads params).2 ≠ .throws e := by
    intro e he
    rw [he] at hend
    exact absurd hend (by simp [Ending.result])
  constructor
  · intro hnothing
    exact hnothing.config
  · intro hconfig
    refine ⟨hconfig, fun hsame => ((hsettled hret).untouched hsame).1, ?_⟩
    intro n hle hn hopens
    rw [(hsettled hret).last n hle hn, if_pos (ReloadOutcome.result_true.mpr hopens), hconfig]

/--
The baud rate is set to what it was, and granted; then the port cannot be opened under the
new name, and can under the old one.
-/
theorem rejected_port_changes_nothing :
    ChangedNothing (fun n => if n = 1 then .closes .fails else .closes .opens)
      ⟨⟨"/tmp/ttyV0", 115200⟩, some ⟨"/tmp/ttyV0", serialOptions 115200⟩, 1, 0⟩
      ⟨⟨"/tmp/ttyV0", 115200⟩, some ⟨"/tmp/ttyV0", serialOptions 115200⟩, 3, 3⟩ := by
  have hgranted : (course (fun n => if n = 1 then .closes .fails else .closes .opens) 0
      [⟨"baud", .integer 115200⟩, ⟨"port", .string "/dev/ttyUSB9"⟩]).1 = [.baud 115200] := by rfl
  refine (rejected_changes_nothing_iff _ _ _
    [⟨"baud", .integer 115200⟩, ⟨"port", .string "/dev/ttyUSB9"⟩] "Setting port failed" ?_).mpr ?_
  · rfl
  · rw [hgranted]
    rfl

/--
The baud rate is granted, the port is not: the settings the port is opened with again are
no longer the old ones.
-/
theorem rejected_keeps_baud :
    ∃ t, SerialState.parameterCallback
        (fun n => if n = 1 then .closes .fails else .closes .opens)
        ⟨⟨"/tmp/ttyV0", 115200⟩, some ⟨"/tmp/ttyV0", serialOptions 115200⟩, 1, 0⟩
        [⟨"baud", .integer 9600⟩, ⟨"port", .string "/dev/ttyUSB9"⟩]
          = (t, .ok ⟨false, "Setting port failed"⟩)
      ∧ t.config = ⟨"/tmp/ttyV0", 9600⟩ ∧ t.serial = some ⟨"/tmp/ttyV0", serialOptions 9600⟩
      ∧ ¬ChangedNothing (fun n => if n = 1 then .closes .fails else .closes .opens)
          ⟨⟨"/tmp/ttyV0", 115200⟩, some ⟨"/tmp/ttyV0", serialOptions 115200⟩, 1, 0⟩ t := by
  refine ⟨_, rfl, rfl, rfl, ?_⟩
  intro hnothing
  exact absurd hnothing.config (by decide)

/-! ## Which lists throw -/

/-- The settings that a list asks for. -/
def changes (params : List Parameter) : List Setting :=
  params.filterMap fun param => match param.request with
    | .change x => some x
    | _ => none

/-- All that a list asks for is granted, with one reload for each setting. -/
structure AllGranted (outcome : Nat → ReloadOutcome) (n : Nat) (params : List Parameter) :
    Prop where
  valid : ∀ param ∈ params, param.request = .foreign ∨ ∃ x, param.request = .change x
  opens : ∀ k < (changes params).length, outcome (n + k) = .closes .opens

/-- `set_option` throws in a reload. -/
def ReloadOutcome.SetOptionThrows (r : ReloadOutcome) : Prop :=
  ∃ i e, r = .closes (.optionThrows i e)

/--
The value of a parameter is of another type, or it is a setting and `set_option` throws for
it, or for the old settings after the port did not open.
-/
def Parameter.Throws (outcome : Nat → ReloadOutcome) (n : Nat) (param : Parameter) : Prop :=
  (∃ e, param.request = .illTyped e)
    ∨ (∃ x, param.request = .change x) ∧ ((outcome n).SetOptionThrows
      ∨ (outcome n).result = .ok false ∧ (outcome (n + 1)).SetOptionThrows)

section Throwing

variable {outcome : Nat → ReloadOutcome} {n : Nat} {param : Parameter} {params : List Parameter}

theorem changes_foreign (h : param.request = .foreign) :
    changes (param :: params) = changes params := by
  unfold changes
  rw [List.filterMap_cons, h]

theorem changes_change {x : Setting} (h : param.request = .change x) :
    changes (param :: params) = x :: changes params := by
  unfold changes
  rw [List.filterMap_cons, h]

theorem allGranted_nil : AllGranted outcome n [] where
  valid := by simp
  opens := by simp [changes]

theorem allGranted_foreign (h : param.request = .foreign) :
    AllGranted outcome n (param :: params) ↔ AllGranted outcome n params := by
  constructor
  · intro hall
    refine ⟨fun p hp => hall.valid p (List.mem_cons_of_mem _ hp), ?_⟩
    rw [← changes_foreign h]
    exact hall.opens
  · intro hall
    refine ⟨?_, by rw [changes_foreign h]; exact hall.opens⟩
    intro p hp
    rcases List.mem_cons.mp hp with rfl | hp
    · exact Or.inl h
    · exact hall.valid p hp

theorem allGranted_change {x : Setting} (h : param.request = .change x) :
    AllGranted outcome n (param :: params)
      ↔ outcome n = .closes .opens ∧ AllGranted outcome (n + 1) params := by
  constructor
  · intro hall
    have hopens := hall.opens
    rw [changes_change h, List.length_cons] at hopens
    refine ⟨hopens 0 (by omega), fun p hp => hall.valid p (List.mem_cons_of_mem _ hp), ?_⟩
    intro k hk
    rw [Nat.add_right_comm]
    exact hopens (k + 1) (by omega)
  · intro ⟨hopen, hall⟩
    refine ⟨?_, ?_⟩
    · intro p hp
      rcases List.mem_cons.mp hp with rfl | hp
      · exact Or.inr ⟨x, h⟩
      · exact hall.valid p hp
    · intro k hk
      rw [changes_change h, List.length_cons] at hk
      rcases k with _ | k
      · exact hopen
      · rw [← Nat.add_assoc, Nat.add_right_comm]
        exact hall.opens k (by omega)

theorem not_allGranted (hforeign : param.request ≠ .foreign)
    (hchange : ∀ x, param.request ≠ .change x) :
    ¬AllGranted outcome n (param :: params) := by
  intro hall
  rcases hall.valid param List.mem_cons_self with h | ⟨x, h⟩
  · exact hforeign h
  · exact hchange x h

theorem ReloadOutcome.result_error {r : ReloadOutcome} :
    (∃ e, r.result = .error e) ↔ r.SetOptionThrows := by
  unfold SetOptionThrows
  rcases r with _ | _ | ⟨i, e⟩ | _ <;> simp [ReloadOutcome.result]

/-- The first element of a list is where it is split, or the split is further on. -/
theorem exists_split_cons {α : Type} {P : List α → α → Prop} {a : α} {as : List α} :
    (∃ before x after, a :: as = before ++ x :: after ∧ P before x)
      ↔ P [] a ∨ ∃ before x after, as = before ++ x :: after ∧ P (a :: before) x := by
  constructor
  · rintro ⟨before, x, after, hsplit, hP⟩
    cases before with
    | nil =>
        obtain ⟨rfl, rfl⟩ := List.cons.inj hsplit
        exact Or.inl hP
    | cons b before =>
        obtain ⟨rfl, rfl⟩ := List.cons.inj hsplit
        exact Or.inr ⟨before, x, after, rfl, hP⟩
  · rintro (hP | ⟨before, x, after, rfl, hP⟩)
    · exact ⟨[], a, as, rfl, hP⟩
    · exact ⟨a :: before, x, after, rfl, hP⟩

/-- A list is granted if its first parameter is and the rest is. -/
theorem course_granted_iff :
    (course outcome n params).2 = .granted ↔ AllGranted outcome n params := by
  induction params generalizing n with
  | nil => exact iff_of_true rfl allGranted_nil
  | cons param params ih =>
      rw [course]
      cases hreq : param.request with
      | foreign => exact ih.trans (allGranted_foreign hreq).symm
      | illTyped e =>
          exact iff_of_false (by simp) (not_allGranted (by simp [hreq]) (by simp [hreq]))
      | invalid reason =>
          exact iff_of_false (by simp) (not_allGranted (by simp [hreq]) (by simp [hreq]))
      | change x =>
          rw [allGranted_change hreq, ← ReloadOutcome.result_true, ← ih]
          cases hres : (outcome n).result with
          | error e => simp
          | ok opened =>
              cases opened with
              | true => simp
              | false => cases (outcome (n + 1)).result <;> simp

/-- A setting throws, or it is granted and what follows throws. -/
theorem course_throws_change {x : Setting} (hreq : param.request = .change x) :
    (∃ e, (course outcome n (param :: params)).2 = .throws e)
      ↔ param.Throws outcome n
        ∨ outcome n = .closes .opens ∧ ∃ e, (course outcome (n + 1) params).2 = .throws e := by
  have hthrows : param.Throws outcome n ↔ (outcome n).SetOptionThrows
      ∨ (outcome n).result = .ok false ∧ (outcome (n + 1)).SetOptionThrows := by
    simp [Parameter.Throws, hreq]
  rw [hthrows, course, hreq, ← ReloadOutcome.result_true, ← ReloadOutcome.result_error,
    ← ReloadOutcome.result_error]
  dsimp only
  cases hres : (outcome n).result with
  | error e => simp
  | ok opened =>
      cases opened with
      | true => simp
      | false => cases (outcome (n + 1)).result <;> simp

/--
**A list throws exactly at a parameter that does, if all before it is granted.** Each setting
granted has taken one reload.
-/
theorem course_throws_iff :
    (∃ e, (course outcome n params).2 = .throws e)
      ↔ ∃ before param after, params = before ++ param :: after ∧ AllGranted outcome n before
        ∧ param.Throws outcome (n + (changes before).length) := by
  induction params generalizing n with
  | nil => simp [course]
  | cons param params ih =>
      rw [exists_split_cons (P := fun before p => AllGranted outcome n before
        ∧ p.Throws outcome (n + (changes before).length))]
      have hfirst : (AllGranted outcome n [] ∧ param.Throws outcome (n + (changes []).length))
          ↔ param.Throws outcome n := and_iff_right allGranted_nil
      rw [hfirst]
      cases hreq : param.request with
      | foreign =>
          have hnot : ¬param.Throws outcome n := by simp [Parameter.Throws, hreq]
          rw [or_iff_right hnot, course, hreq]
          simp only [allGranted_foreign hreq, changes_foreign hreq]
          exact ih
      | illTyped e =>
          rw [course, hreq]
          exact iff_of_true ⟨e, rfl⟩ (Or.inl (Or.inl ⟨e, hreq⟩))
      | invalid reason =>
          have hnot : ¬param.Throws outcome n := by simp [Parameter.Throws, hreq]
          rw [or_iff_right hnot, course, hreq]
          refine iff_of_false (by simp) ?_
          rintro ⟨before, p, after, -, hall, -⟩
          exact not_allGranted (by simp [hreq]) (by simp [hreq]) hall
      | change x =>
          rw [course_throws_change hreq, ih]
          refine or_congr Iff.rfl ?_
          simp only [allGranted_change hreq, changes_change hreq, List.length_cons]
          constructor
          · rintro ⟨hopens, before, p, after, rfl, hall, hthrows⟩
            refine ⟨before, p, after, rfl, ⟨hopens, hall⟩, ?_⟩
            rwa [Nat.add_right_comm, Nat.add_assoc] at hthrows
          · rintro ⟨before, p, after, rfl, ⟨hopens, hall⟩, hthrows⟩
            refine ⟨hopens, before, p, after, rfl, hall, ?_⟩
            rwa [Nat.add_right_comm, Nat.add_assoc]

end Throwing

/-! ## Runs of calls -/

/-- A call of `parameter_callback`, with the outcomes of its reloads. -/
structure ParameterCall where
  params : List Parameter
  outcome : Nat → ReloadOutcome

namespace SerialState

def update (s : SerialState) (call : ParameterCall) :
    SerialState × Except StdException SetParametersResult :=
  { s with reloads := 0 }.parameterCallback call.outcome call.params

def step (s : SerialState) (call : ParameterCall) : Option SerialState := some (s.update call).1

/-- An open port was opened and configured with the settings of the configuration. -/
def Matches (s : SerialState) : Prop := ∀ port, s.serial = some port → port = s.config.opened

end SerialState

/-- The last baud rate asked for, as ROS delivers it. -/
def lastBaud (params : List Parameter) : Option Int64 :=
  (params.filterMap fun param => if param.name = "baud" then param.asInt.toOption else none).getLast?

def lastPort (params : List Parameter) : Option String :=
  (params.filterMap fun param =>
    if param.name = "port" then param.asString.toOption else none).getLast?

/-- `t` has the settings last asked for, and the others as in `s`. -/
structure Honours (params : List Parameter) (s t : SerialConfig) : Prop where
  baud : t.baud.toInt = ((lastBaud params).map Int64.toInt).getD s.baud.toInt
  port : t.port = (lastPort params).getD s.port

/-- The call returns a result, and a successful one has done what it was asked for. -/
def Fulfilled (s : SerialState) (call : ParameterCall) : Prop :=
  ∃ t result, s.update call = (t, .ok result)
    ∧ (result.successful = true → Honours call.params s.config t.config)

/-- Nothing throws, and unless something is refused the last baud rate is an `int`. -/
def ParameterCall.Sound (call : ParameterCall) : Prop :=
  (∀ e, (course call.outcome 0 call.params).2 ≠ .throws e)
    ∧ ((course call.outcome 0 call.params).2 = .granted →
      ∀ value, lastBaud call.params = some value → value.toInt32.toInt = value.toInt)

/-- `Sound`, in terms of the parameters and of what the reloads answer. -/
theorem ParameterCall.sound_iff (call : ParameterCall) :
    call.Sound
      ↔ (¬∃ before param after, call.params = before ++ param :: after
          ∧ AllGranted call.outcome 0 before ∧ param.Throws call.outcome (changes before).length)
        ∧ (AllGranted call.outcome 0 call.params →
          ∀ value, lastBaud call.params = some value → value.toInt32.toInt = value.toInt) := by
  unfold Sound
  rw [course_granted_iff, ← not_exists, course_throws_iff]
  simp only [Nat.zero_add]

theorem getLast?_filterMap_cons {α β : Type} (f : α → Option β) (a : α) (as : List α) :
    ((a :: as).filterMap f).getLast? = ((as.filterMap f).getLast?).or (f a) := by
  rw [List.filterMap_cons]
  cases f a with
  | none => exact (Option.or_none).symm
  | some b =>
      rw [List.getLast?_cons]
      cases (as.filterMap f).getLast? <;> rfl

theorem lastBaud_cons (param : Parameter) (params : List Parameter) :
    lastBaud (param :: params) = (lastBaud params).or
      (if param.name = "baud" then param.asInt.toOption else none) :=
  getLast?_filterMap_cons _ param params

theorem lastPort_cons (param : Parameter) (params : List Parameter) :
    lastPort (param :: params) = (lastPort params).or
      (if param.name = "port" then param.asString.toOption else none) :=
  getLast?_filterMap_cons _ param params

/-- **What a parameter can ask for.** -/
theorem request_cases (param : Parameter) :
    (param.request = .foreign ∧ param.name ≠ "baud" ∧ param.name ≠ "port")
      ∨ (∃ value, param.request = .change (.baud value.toInt32) ∧ param.name = "baud"
        ∧ param.asInt = .ok value)
      ∨ (∃ value, param.request = .change (.port value) ∧ param.name = "port"
        ∧ param.asString = .ok value)
      ∨ (∃ e, param.request = .illTyped e) ∨ ∃ reason, param.request = .invalid reason := by
  unfold Parameter.request
  by_cases hbaud : param.name = "baud"
  · rw [if_pos hbaud]
    cases param.asInt with
    | error e => exact Or.inr (Or.inr (Or.inr (Or.inl ⟨e, rfl⟩)))
    | ok value =>
        dsimp only
        split
        · exact Or.inr (Or.inr (Or.inr (Or.inr ⟨_, rfl⟩)))
        · exact Or.inr (Or.inl ⟨value, rfl, hbaud, rfl⟩)
  · rw [if_neg hbaud]
    by_cases hport : param.name = "port"
    · rw [if_pos hport]
      cases param.asString with
      | error e => exact Or.inr (Or.inr (Or.inr (Or.inl ⟨e, rfl⟩)))
      | ok value =>
          dsimp only
          split
          · exact Or.inr (Or.inr (Or.inr (Or.inr ⟨_, rfl⟩)))
          · exact Or.inr (Or.inr (Or.inl ⟨value, rfl, hport, rfl⟩))
    · rw [if_neg hport]
      exact Or.inl ⟨rfl, hbaud, hport⟩

/-- In a list that is granted each change is granted, and so is what follows it. -/
theorem course_change {outcome : Nat → ReloadOutcome} {n : Nat} {param : Parameter}
    {params : List Parameter} {x : Setting} (hreq : param.request = .change x)
    (h : (course outcome n (param :: params)).2 = .granted) :
    (course outcome (n + 1) params).2 = .granted
      ∧ (course outcome n (param :: params)).1 = x :: (course outcome (n + 1) params).1 := by
  rw [course, hreq] at h ⊢
  dsimp only at h ⊢
  split at h
  · exact ⟨h, rfl⟩
  · exact absurd h (by simp)
  · exact absurd h (by simp)
  · exact absurd h (by simp)

/-- A list that is granted leads to what was last asked for, the baud rate as an `int`. -/
theorem granted_last {outcome : Nat → ReloadOutcome} {n : Nat} {params : List Parameter}
    (h : (course outcome n params).2 = .granted) (config : SerialConfig) :
    (config.applyAll (course outcome n params).1).baud
        = ((lastBaud params).map Int64.toInt32).getD config.baud
      ∧ (config.applyAll (course outcome n params).1).port
        = (lastPort params).getD config.port := by
  induction params generalizing n config with
  | nil => exact ⟨rfl, rfl⟩
  | cons param params ih =>
      rw [lastBaud_cons, lastPort_cons]
      rcases request_cases param with ⟨hreq, hbaud, hport⟩ | ⟨value, hreq, hname, hvalue⟩ |
        ⟨value, hreq, hname, hvalue⟩ | ⟨e, hreq⟩ | ⟨reason, hreq⟩
      · rw [course, hreq] at h ⊢
        rw [if_neg hbaud, if_neg hport, Option.or_none, Option.or_none]
        exact ih h config
      · obtain ⟨hrest, hgranted⟩ := course_change hreq h
        obtain ⟨hbaud, hport⟩ := ih hrest { config with baud := value.toInt32 }
        rw [hgranted, if_pos hname, hvalue, if_neg (by rw [hname]; simp), Option.or_none]
        refine ⟨hbaud.trans ?_, hport⟩
        -- the value stands unless a later one replaces it
        cases lastBaud params with
        | none => rfl
        | some later => rfl
      · obtain ⟨hrest, hgranted⟩ := course_change hreq h
        obtain ⟨hbaud, hport⟩ := ih hrest { config with port := value }
        rw [hgranted, if_pos hname, hvalue, if_neg (by rw [hname]; simp), Option.or_none]
        refine ⟨hbaud, hport.trans ?_⟩
        cases lastPort params with
        | none => rfl
        | some later => rfl
      · rw [course, hreq] at h
        exact absurd h (by simp)
      · rw [course, hreq] at h
        exact absurd h (by simp)

/-- `parameterCallback_course` for a call of a run. -/
theorem update_course (s : SerialState) (call : ParameterCall) :
    (s.update call).1.config = s.config.applyAll (course call.outcome 0 call.params).1
      ∧ (s.update call).2 = (course call.outcome 0 call.params).2.result
      ∧ ((∀ e, (course call.outcome 0 call.params).2 ≠ .throws e) →
        Settled call.outcome { s with reloads := 0 } (s.update call).1) :=
  parameterCallback_course call.outcome { s with reloads := 0 } call.params

/-- A call that returns leaves the port as the configuration says. -/
theorem matches_update {s : SerialState} (hs : s.Matches) {call : ParameterCall}
    (hret : ∀ e, (course call.outcome 0 call.params).2 ≠ .throws e) : (s.update call).1.Matches := by
  have hsettled := (update_course s call).2.2 hret
  intro port hport
  by_cases hzero : (s.update call).1.reloads = 0
  · obtain ⟨hsame, hconfig⟩ := hsettled.untouched hzero
    rw [hconfig]
    rw [hsame] at hport
    exact hs port hport
  · -- the last reload has opened the port, or it is closed
    obtain ⟨n, hn⟩ := Nat.exists_eq_succ_of_ne_zero hzero
    have hlast := hsettled.last n (Nat.zero_le n) hn
    rw [hport] at hlast
    split at hlast
    · exact Option.some.inj hlast
    · exact absurd hlast (by simp)

theorem sound_of_fulfilled {s : SerialState} {call : ParameterCall} (h : Fulfilled s call) :
    call.Sound := by
  obtain ⟨t, result, hcall, hdone⟩ := h
  obtain ⟨hfold, hend, -⟩ := update_course s call
  rw [hcall] at hfold hend
  refine ⟨?_, ?_⟩
  · intro e he
    rw [he] at hend
    exact absurd hend (by simp [Ending.result])
  · intro hgranted value hvalue
    rw [hgranted] at hend
    obtain rfl := Except.ok.inj hend
    have hbaud := (hdone rfl).baud
    rw [hfold, (granted_last hgranted s.config).1, hvalue] at hbaud
    exact hbaud

theorem fulfilled_of_sound (s : SerialState) {call : ParameterCall} (h : call.Sound) :
    Fulfilled s call := by
  obtain ⟨hret, hint⟩ := h
  obtain ⟨hfold, hend, -⟩ := update_course s call
  cases hc : (course call.outcome 0 call.params).2 with
  | throws e => exact absurd hc (hret e)
  | refused reason =>
      rw [hc] at hend
      refine ⟨(s.update call).1, ⟨false, reason⟩, Prod.ext rfl hend, ?_⟩
      intro hsucc
      exact absurd hsucc (by simp)
  | granted =>
      rw [hc] at hend
      refine ⟨(s.update call).1, ⟨true, "success"⟩, Prod.ext rfl hend, ?_⟩
      intro _
      obtain ⟨hbaud, hport⟩ := granted_last hc s.config
      refine ⟨?_, by rw [hfold, hport]⟩
      rw [hfold, hbaud]
      cases hlast : lastBaud call.params with
      | none => rfl
      | some value => exact hint hc value hlast

/-- **One call**, from a state that matches. -/
theorem update_sound_iff {s : SerialState} (hs : s.Matches) (call : ParameterCall) :
    (Fulfilled s call ∧ ∀ t, s.step call = some t → t.Matches) ↔ call.Sound := by
  constructor
  · intro h
    exact sound_of_fulfilled h.1
  · intro h
    refine ⟨fulfilled_of_sound s h, ?_⟩
    intro t ht
    obtain rfl := Option.some.inj ht
    exact matches_update hs h.1

theorem matches_openSerial {s t : SerialState} {opening : OpenOutcome} {opened : Bool}
    (h : s.openSerial s.config.port s.config.baud opening = (t, .ok opened)) : t.Matches := by
  intro port hport
  cases opening with
  | fails =>
      obtain ⟨rfl, -⟩ := Prod.mk.inj h
      exact absurd hport (by simp)
  | optionThrows i e => exact absurd (Prod.mk.inj h).2 (by simp)
  | opens =>
      obtain ⟨rfl, -⟩ := Prod.mk.inj h
      exact (Option.some.inj hport).symm

theorem takes_sound_iff (s : SerialState) (calls : List ParameterCall) :
    Lts.Takes step (fun _ call => call.Sound) s calls ↔ ∀ call ∈ calls, call.Sound := by
  have htotal : ∀ (s : SerialState) (call : ParameterCall), ∃ t, s.step call = some t :=
    fun s call => ⟨(s.update call).1, rfl⟩
  obtain ⟨t, ht⟩ := Lts.exec_total htotal calls s
  exact Lts.takes_iff_forall ht

/--
**Configuration and port agree, and requests are fulfilled, in exactly the runs of sound
calls.** The run starts where the constructor has left the session.
-/
theorem settings_agree_iff (config : SerialConfig) (opening : OpenOutcome) (opened : Bool)
    (s : SerialState) (h : SerialState.openSerial ⟨config, none, 0, 0⟩ config.port config.baud opening
      = (s, .ok opened)) (calls : List ParameterCall) :
    Lts.Visits step Matches s calls ∧ Lts.Takes step Fulfilled s calls
      ↔ ∀ call ∈ calls, call.Sound := by
  rw [← takes_sound_iff s calls]
  refine Lts.visits_takes_iff ?_ (matches_openSerial h)
  intro s call hs
  exact update_sound_iff hs call

/-- A port is refused, and a baud rate then granted. -/
theorem settings_agree_after_refusal :
    Lts.Visits step Matches ⟨⟨"/tmp/ttyV0", 115200⟩, some ⟨"/tmp/ttyV0", serialOptions 115200⟩, 1, 0⟩
        [⟨[⟨"port", .string ""⟩], fun _ => .closes .opens⟩,
          ⟨[⟨"baud", .integer 9600⟩], fun _ => .closes .opens⟩]
      ∧ Lts.Takes step Fulfilled
        ⟨⟨"/tmp/ttyV0", 115200⟩, some ⟨"/tmp/ttyV0", serialOptions 115200⟩, 1, 0⟩
        [⟨[⟨"port", .string ""⟩], fun _ => .closes .opens⟩,
          ⟨[⟨"baud", .integer 9600⟩], fun _ => .closes .opens⟩] := by
  refine (settings_agree_iff ⟨"/tmp/ttyV0", 115200⟩ .opens true _ rfl _).mpr ?_
  have hport : (course (fun _ => .closes .opens) 0 [⟨"port", .string ""⟩]).2
      = .refused "The port name is null !" := by rfl
  have hbaud : (course (fun _ => .closes .opens) 0 [⟨"baud", .integer 9600⟩]).2 = .granted := by rfl
  intro call hcall
  simp only [List.mem_cons, List.not_mem_nil, or_false] at hcall
  rcases hcall with rfl | rfl
  · unfold ParameterCall.Sound
    rw [hport]
    exact ⟨by simp, fun hgranted => absurd hgranted (by simp)⟩
  · unfold ParameterCall.Sound
    rw [hbaud]
    refine ⟨by simp, ?_⟩
    intro _ value hvalue
    obtain rfl : (9600 : Int64) = value := Option.some.inj hvalue
    rfl

/--
Setting a baud rate that the platform does not know throws out of the callback; one beyond
`int` is granted as its low half.
-/
theorem settings_disagree :
    ∃ s, SerialState.openSerial ⟨⟨"/tmp/ttyV0", 115200⟩, none, 0, 0⟩ "/tmp/ttyV0" 115200 .opens
        = (s, .ok true)
      ∧ (s.update ⟨[⟨"baud", .integer 250001⟩], fun _ =>
          .closes (.optionThrows 0 (.runtimeError "set_option: Invalid argument"))⟩).2
        = .error (.runtimeError "set_option: Invalid argument")
      ∧ ¬Lts.Takes step Fulfilled s [⟨[⟨"baud", .integer 250001⟩], fun _ =>
          .closes (.optionThrows 0 (.runtimeError "set_option: Invalid argument"))⟩]
      ∧ (s.update ⟨[⟨"baud", .integer 4294976896⟩], fun _ => .closes .opens⟩).2
        = .ok ⟨true, "success"⟩
      ∧ (s.update ⟨[⟨"baud", .integer 4294976896⟩], fun _ => .closes .opens⟩).1.config.baud = 9600
      ∧ ¬Lts.Takes step Fulfilled s
          [⟨[⟨"baud", .integer 4294976896⟩], fun _ => .closes .opens⟩] := by
  refine ⟨_, rfl, rfl, ?_, rfl, rfl, ?_⟩
  · intro htakes
    obtain ⟨t, result, hcall, -⟩ := htakes.1
    exact absurd (Prod.mk.inj hcall).2 (by simp)
  · intro htakes
    obtain ⟨t, result, hcall, hdone⟩ := htakes.1
    obtain ⟨rfl, hresult⟩ := Prod.mk.inj hcall
    obtain rfl := Except.ok.inj hresult
    exact absurd (hdone rfl).baud (by decide)

end RosserialServer
