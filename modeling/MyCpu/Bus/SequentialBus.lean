import MyCpu.Bus.Top

/-! # The bus as one access at a time

What the bus is for, without channels: the CPU issues a request, the device of
the addressed region is read or written once, and the CPU is told.  `BusPhase` is
the progress of the access in flight, `BusPhase.next` its progress in one cycle,
and `BusEvent` what can be observed at the CPU and at the devices. -/

namespace MyCpu

inductive BusRequest where
  | read (address : Word)
  | write (address data : Word) (strobe : Strobe)
deriving DecidableEq, Repr

def BusRequest.address : BusRequest → Word
  | .read address => address
  | .write address _ _ => address

inductive BusEvent where
  /-- The CPU's request is accepted. -/
  | issue (request : BusRequest)
  /-- A device that is being read answers. -/
  | supply (region : Fin 8) (address data : Word)
  /-- A device sees one cycle of `write`. -/
  | deliver (region : Fin 8) (address data : Word) (strobe : Strobe)
  | readDone (data : Word)
  | writeDone
deriving DecidableEq, Repr

/-- The address bits that the slave of a region keeps: all of them for memory, eight for a
    peripheral. -/
def deviceAddress (region : Fin 8) (address : Word) : Word :=
  if region = 0 then address else (address.setWidth 8).setWidth 32

/-- A finished access. -/
inductive BusAccess where
  | read (address data : Word)
  | write (address data : Word) (strobe : Strobe)
deriving DecidableEq, Repr

namespace BusAccess

/-- The events that an access must cause, in this order. -/
def events : BusAccess → List BusEvent
  | .read address data =>
    [.issue (.read address),
      .supply (BusSwitch.index address) (deviceAddress (BusSwitch.index address) address) data,
      .readDone data]
  | .write address data strobe =>
    [.issue (.write address data strobe),
      .deliver (BusSwitch.index address)
        (deviceAddress (BusSwitch.index address) address) data strobe,
      .writeDone]

/-- The CPU's view of the end of an access. -/
def done : BusAccess → BusEvent
  | .read _ data => .readDone data
  | .write _ _ _ => .writeDone

end BusAccess

/-! ## Progress of the access in flight -/

inductive BusPhase where
  | ready (finished : Option BusAccess)
  | readIssued (address : Word)
  | readAddressed (address : Word)
  | readPending (address : Word)
  | readSupplied (address data : Word)
  | writeIssued (address data : Word) (strobe : Strobe)
  | writeAddressed (address data : Word) (strobe : Strobe)
  | writeAccepted (address data : Word) (strobe : Strobe)
  | writeDelivering (address data : Word) (strobe : Strobe)
  | writeDelivered (address data : Word) (strobe : Strobe)

namespace BusPhase

/-- The address of the access in flight. -/
def address : BusPhase → Option Word
  | .ready _ => none
  | .readIssued a | .readAddressed a | .readPending a | .readSupplied a _ => some a
  | .writeIssued a _ _ | .writeAddressed a _ _ | .writeAccepted a _ _ | .writeDelivering a _ _
  | .writeDelivered a _ _ => some a

def region (phase : BusPhase) : Option (Fin 8) := phase.address.map BusSwitch.index

/-- One cycle, with the request of the CPU and the answer of each region's device. -/
def next (request : Option BusRequest) (answer : Fin 8 → Option Word) : BusPhase → BusPhase
  | .ready _ =>
    match request with
    | none => .ready none
    | some (.read a) => .readIssued a
    | some (.write a d s) => .writeIssued a d s
  | .readIssued a => .readAddressed a
  | .readAddressed a => .readPending a
  | .readPending a =>
    match answer (BusSwitch.index a) with
    | none => .readPending a
    | some d => .readSupplied a d
  | .readSupplied a d => .ready (some (.read a d))
  | .writeIssued a d s => .writeAddressed a d s
  | .writeAddressed a d s => .writeAccepted a d s
  | .writeAccepted a d s => .writeDelivering a d s
  | .writeDelivering a d s => .writeDelivered a d s
  | .writeDelivered a d s => .ready (some (.write a d s))

/-- The observable events of one cycle. -/
def emit (request : Option BusRequest) (answer : Fin 8 → Option Word) : BusPhase → List BusEvent
  | .ready finished => (finished.map BusAccess.done).toList ++ (request.map BusEvent.issue).toList
  | .readPending a =>
    ((answer (BusSwitch.index a)).map
      (BusEvent.supply (BusSwitch.index a) (deviceAddress (BusSwitch.index a) a))).toList
  | .writeDelivering a d s =>
    [.deliver (BusSwitch.index a) (deviceAddress (BusSwitch.index a) a) d s]
  | _ => []

/-- The events that the access in flight has caused so far. -/
def sofar : BusPhase → List BusEvent
  | .ready none => []
  | .ready (some access) => access.events.take 2
  | .readIssued a | .readAddressed a | .readPending a => [.issue (.read a)]
  | .readSupplied a d => (BusAccess.read a d).events.take 2
  | .writeIssued a d s | .writeAddressed a d s | .writeAccepted a d s | .writeDelivering a d s =>
    [.issue (.write a d s)]
  | .writeDelivered a d s => (BusAccess.write a d s).events.take 2

/-- One cycle continues the events of the access in flight, or completes them and starts the
    next. -/
theorem sofar_emit (request : Option BusRequest) (answer : Fin 8 → Option Word) (phase : BusPhase) :
    ∃ finished : List BusAccess,
      phase.sofar ++ phase.emit request answer =
        finished.flatMap BusAccess.events ++ (phase.next request answer).sofar := by
  cases phase with
  | ready finished =>
    refine ⟨finished.toList, ?_⟩
    cases finished with
    | none => cases request with
      | none => rfl
      | some request => cases request <;> rfl
    | some access => cases access <;> cases request with
      | none => rfl
      | some request => cases request <;> rfl
  | readPending a =>
    refine ⟨[], ?_⟩
    simp only [sofar, emit, next, List.flatMap_nil, List.nil_append]
    cases answer (BusSwitch.index a) <;> rfl
  | readIssued | readAddressed | readSupplied | writeIssued | writeAddressed | writeAccepted
  | writeDelivering | writeDelivered => exact ⟨[], rfl⟩

end BusPhase

/-! ## Reading a log -/

/-- The request that has been issued and not answered at the end of a log. -/
def inFlight (log : List BusEvent) : Option BusRequest :=
  log.foldl
    (fun current event =>
      match event with
      | .issue request => some request
      | .readDone _ | .writeDone => none
      | .supply _ _ _ | .deliver _ _ _ _ => current)
    none

/-- The number of answers that the CPU has received. -/
def answered (log : List BusEvent) : ℕ :=
  log.countP fun event =>
    match event with
    | .readDone _ | .writeDone => true
    | .issue _ | .supply _ _ _ | .deliver _ _ _ _ => false

theorem answered_append (log events : List BusEvent) :
    answered (log ++ events) = answered log + answered events := List.countP_append

theorem inFlight_finished (finished : List BusAccess) :
    inFlight (finished.flatMap BusAccess.events) = none := by
  induction finished with
  | nil => rfl
  | cons access finished inductionHypothesis =>
    cases access <;> exact inductionHypothesis

/-- Finished accesses do not matter for the request in flight. -/
theorem inFlight_append (finished : List BusAccess) (events : List BusEvent) :
    inFlight (finished.flatMap BusAccess.events ++ events) = inFlight events := by
  have nothing := inFlight_finished finished
  unfold inFlight at nothing ⊢
  rw [List.foldl_append, nothing]

theorem inFlight_sofar (phase : BusPhase) (a : Word) (flying : phase.address = some a) :
    ∃ request, inFlight phase.sofar = some request ∧ request.address = a := by
  cases phase <;> simp only [BusPhase.address, Option.some.injEq,
    reduceCtorEq] at flying <;> subst flying <;>
    exact ⟨_, rfl, rfl⟩

end MyCpu
