import RosserialServer.Session.ReadPhases

/-!
# Opening and reopening the port (`session/serial_session.hpp`)

`open_serial`, `reload_hardware` and `parameter_callback`, and the session they act on.

What the operating system answers to `close`, `open` and `set_option` is not in this
repository: a call gets it as an `OpenOutcome` or a `ReloadOutcome`. `SerialState` is the
members of `SerialDrive` these functions change; `DriveWorld` is the whole reading side,
with everything outstanding in `service_io_`.

`open_serial` puts a new `AsyncReadBuffer` into `async_reader_`, which was the only owner
of the one before. The operations that one had started stay in `service_io_` with pointers
into it. They are kept apart, as `stale`.
-/

namespace RosserialServer

structure SerialConfig where
  port : String
  baud : Int32
  deriving DecidableEq, Repr

/-! ## Parameters -/

/-- The value of an `rclcpp::Parameter`. -/
inductive ParameterValue where
  | integer (value : Int64)
  | string (value : String)
  /-- A value of another type, of which only the name of the type matters here. -/
  | other (typeName : String)
  deriving DecidableEq, Repr

def ParameterValue.typeName : ParameterValue → String
  | integer _ => "integer"
  | string _ => "string"
  | other typeName => typeName

structure Parameter where
  name : String
  value : ParameterValue
  deriving DecidableEq, Repr

namespace Parameter

/-- What `rclcpp` throws when a value is not of the type asked for. -/
def invalidType (param : Parameter) (expected : String) : StdException :=
  .runtimeError ("parameter '" ++ param.name ++ "' has invalid type: expected [" ++ expected
    ++ "] got [" ++ param.value.typeName ++ "]")

def asInt (param : Parameter) : Except StdException Int64 :=
  match param.value with
  | .integer value => .ok value
  | _ => .error (param.invalidType "integer")

def asString (param : Parameter) : Except StdException String :=
  match param.value with
  | .string value => .ok value
  | _ => .error (param.invalidType "string")

end Parameter

structure SetParametersResult where
  successful : Bool
  reason : String
  deriving DecidableEq, Repr

/-! ## The port -/

inductive PortOption where
  | baudRate (baud : Int32)
  | characterSize (bits : Nat)
  | stopBitsOne
  | parityNone
  | flowControlNone
  deriving DecidableEq, Repr

/-- The options `open_serial` sets, in order. -/
def serialOptions (baud : Int32) : List PortOption :=
  [.baudRate baud, .characterSize 8, .stopBitsOne, .parityNone, .flowControlNone]

/-- `serial_` while it is open: the device, and the options that have been set. -/
structure OpenPort where
  device : String
  options : List PortOption
  deriving DecidableEq, Repr

/-- How `open` and the `set_option`s after it come out. -/
inductive OpenOutcome where
  /-- `open` reports an error. -/
  | fails
  /-- The port is open, but the `i`-th `set_option` throws. -/
  | optionThrows (i : Fin 5) (e : StdException)
  | opens
  deriving DecidableEq, Repr

/-- How the calls of `reload_hardware` come out. -/
inductive ReloadOutcome where
  /-- `close` reports an error; `serial_` is no longer open all the same. -/
  | closeFails
  | closes (opening : OpenOutcome)
  deriving DecidableEq, Repr

structure SerialState where
  config : SerialConfig
  /-- `serial_`, if it is open. -/
  serial : Option OpenPort
  /-- How many readers have been put into `async_reader_`. -/
  readersMade : Nat
  /-- How many times `reload_hardware` has been called. -/
  reloads : Nat
  deriving DecidableEq, Repr

namespace SerialState

/-- `open_serial`. A port that is still open is closed first, whatever that reports. -/
def openSerial (s : SerialState) (port : String) (baud : Int32) :
    OpenOutcome → SerialState × Except StdException Bool
  | .fails => ({ s with serial := none }, .ok false)
  | .optionThrows i e => ({ s with serial := some ⟨port, (serialOptions baud).take i⟩ }, .error e)
  | .opens =>
      ({ s with
          serial := some ⟨port, serialOptions baud⟩
          readersMade := s.readersMade + 1 }, .ok true)

/-- `reload_hardware`; `outcome n` is how the `n`-th reload comes out. -/
def reloadHardware (outcome : Nat → ReloadOutcome) (s : SerialState) (port : String)
    (baud : Int32) : SerialState × Except StdException Bool :=
  let closed := { s with serial := none, reloads := s.reloads + 1 }
  match outcome s.reloads with
  | .closeFails => (closed, .ok false)
  | .closes opening => closed.openSerial port baud opening

/--
Reload with new settings. They are kept when the port opens; otherwise the old ones are
reloaded, whatever comes of that, and the call ends with `reason`. No result means that
the loop goes on.
-/
def trySettings (outcome : Nat → ReloadOutcome) (s : SerialState) (new : SerialConfig)
    (reason : String) : SerialState × Except StdException (Option SetParametersResult) :=
  match s.reloadHardware outcome new.port new.baud with
  | (s, .error e) => (s, .error e)
  | (s, .ok true) => ({ s with config := new }, .ok none)
  | (s, .ok false) =>
      match s.reloadHardware outcome s.config.port s.config.baud with
      | (s, .error e) => (s, .error e)
      | (s, .ok _) => (s, .ok (some ⟨false, reason⟩))

/-- The branch of the loop for `"baud"`. -/
def baudParameter (outcome : Nat → ReloadOutcome) (s : SerialState) (param : Parameter) :
    SerialState × Except StdException (Option SetParametersResult) :=
  match param.asInt with
  | .error e => (s, .error e)
  | .ok value =>
      -- `int new_baud`: the high half is dropped
      let newBaud := value.toInt32
      if newBaud ≤ 0 then (s, .ok (some ⟨false, "The baud value is wrong !"⟩))
      else s.trySettings outcome { s.config with baud := newBaud } "Setting buad failed"

/-- The branch of the loop for `"port"`. -/
def portParameter (outcome : Nat → ReloadOutcome) (s : SerialState) (param : Parameter) :
    SerialState × Except StdException (Option SetParametersResult) :=
  match param.asString with
  | .error e => (s, .error e)
  | .ok newPort =>
      if newPort = "" then (s, .ok (some ⟨false, "The port name is null !"⟩))
      else s.trySettings outcome { s.config with port := newPort } "Setting port failed"

/-- One turn of the loop: a parameter may be one of the two, or none of this session's. -/
def setParameter (outcome : Nat → ReloadOutcome) (s : SerialState) (param : Parameter) :
    SerialState × Except StdException (Option SetParametersResult) :=
  if param.name = "baud" then s.baudParameter outcome param
  else if param.name = "port" then s.portParameter outcome param
  else (s, .ok none)

def parameterCallback (outcome : Nat → ReloadOutcome) (s : SerialState) :
    List Parameter → SerialState × Except StdException SetParametersResult
  | [] => (s, .ok ⟨true, "success"⟩)
  | param :: params =>
      match s.setParameter outcome param with
      | (s, .error e) => (s, .error e)
      | (s, .ok (some result)) => (s, .ok result)
      | (s, .ok none) => s.parameterCallback outcome params

end SerialState

/-! ## The session at run time -/

structure DriveWorld (τ : Type) where
  config : SerialConfig
  serial : Option OpenPort
  /-- `async_reader_`, null until a port has been opened. -/
  asyncReader : Option (AsyncReadBuffer Handler)
  /-- What the reader in `async_reader_` has outstanding in `service_io_`. -/
  serviceIo : List (Continuation Handler)
  /-- What readers that `async_reader_` no longer holds have outstanding there. -/
  stale : List (Continuation Handler)
  session : Session τ
  /-- What left a callback, and the executor with it, if anything did. -/
  escaped : Option Failure
  /-- Bytes received on the current port and not handed over. -/
  arrived : List UInt8
  deriving DecidableEq

inductive DriveEvent where
  /-- A chunk becomes available on the port. -/
  | arrive (chunk : List UInt8)
  /-- An operation of the reader in `async_reader_` completes or is run. -/
  | read (e : PortEvent)
  /-- The `i`-th operation of the readers that are gone completes or is run. -/
  | stale (i : Nat)
  /-- `parameter_callback`, with the outcomes of the reloads it makes. -/
  | reconfigure (params : List Parameter) (outcomes : List ReloadOutcome)
  deriving DecidableEq, Repr

/-- `async_reader_->read` while `async_reader_` is null. -/
def nullReader : Failure := .undefined "call through a null async_reader_"

/-- A completion that reaches a destroyed reader, or a callback whose bytes were in one. -/
def destroyedReader : Failure := .undefined "use of a destroyed AsyncReadBuffer"

namespace DriveWorld

variable {τ : Type}

/-- The reading side as the reader in `async_reader_` sees it. -/
def reading (w : DriveWorld τ) (reader : AsyncReadBuffer Handler) :
    ReadWorld Handler (Session τ) :=
  { reader := reader, serviceIo := w.serviceIo, user := w.session, escaped := w.escaped
    arrived := w.arrived, wire := [] }

/-- Put the reading side back. -/
def absorb (w : DriveWorld τ) (r : ReadWorld Handler (Session τ)) : DriveWorld τ :=
  { w with
    asyncReader := some r.reader
    serviceIo := r.serviceIo
    session := r.user
    escaped := r.escaped
    arrived := r.arrived }

/-- A new reader in `async_reader_`, on a port that has just been opened. -/
def replaceReader (w : DriveWorld τ) : DriveWorld τ :=
  { w with
    asyncReader := some (.new readerCapacity)
    serviceIo := []
    stale := w.stale ++ w.serviceIo
    arrived := [] }

/-- The session after a call that has left `serial_` and `serial_config_` as in `s`. -/
def update (w : DriveWorld τ) (s : SerialState) : DriveWorld τ :=
  let w := { w with config := s.config, serial := s.serial }
  -- readers made and replaced within one call have nothing outstanding
  if s.readersMade = 0 then w else w.replaceReader

/-- `start_read`, after the two routing entries. -/
def startRead (w : DriveWorld τ) : DriveWorld τ :=
  match w.asyncReader with
  | none => { w with escaped := some nullReader }
  | some reader => w.absorb ((w.reading reader).perform readAsyncHead)

/-- `SerialDrive(serial_config, node)`; it does not look at what `open_serial` returns. -/
def new (tables : τ) (config : SerialConfig) (opening : OpenOutcome) :
    Except StdException (DriveWorld τ) :=
  let idle : DriveWorld τ :=
    { config := config, serial := none, asyncReader := none, serviceIo := [], stale := []
      session := { tables := tables, dispatched := [] }, escaped := none, arrived := [] }
  let s : SerialState := { config := config, serial := none, readersMade := 0, reloads := 0 }
  match s.openSerial config.port config.baud opening with
  | (_, .error e) => .error e
  | (s, .ok _) => .ok (idle.update s).startRead

/-- `parameter_callback` on the session, when the reloads it makes come out as listed. -/
def reconfigure (w : DriveWorld τ) (params : List Parameter) (outcomes : List ReloadOutcome) :
    Option (DriveWorld τ) :=
  let s : SerialState :=
    { config := w.config, serial := w.serial, readersMade := 0, reloads := 0 }
  let (s, result) := s.parameterCallback (fun n => outcomes.getD n .closeFails) params
  -- the list is the outcomes of this call only if the call makes that many reloads
  if s.reloads = outcomes.length then
    match result with
    | .error e => some { w.update s with escaped := some (.thrown e) }
    | .ok _ => some (w.update s)
  else none

def step (dispatch : Dispatch τ) (w : DriveWorld τ) : DriveEvent → Option (DriveWorld τ)
  | .arrive chunk =>
      if w.escaped = none ∧ w.serial.isSome then some { w with arrived := w.arrived ++ chunk }
      else none
  | .read e =>
      -- on a closed port a read may still complete with bytes it was given before
      match w.asyncReader with
      | none => none
      | some reader => ((w.reading reader).step (handle dispatch) e).map w.absorb
  | .stale i =>
      if w.escaped = none ∧ i < w.stale.length then
        some { w with stale := w.stale.eraseIdx i, escaped := some destroyedReader }
      else none
  | .reconfigure params outcomes =>
      if w.escaped = none then w.reconfigure params outcomes else none

end DriveWorld

end RosserialServer
