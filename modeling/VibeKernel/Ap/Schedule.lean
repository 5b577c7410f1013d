import VibeKernel.Ap.Ping
import VibeKernel.Conc.Drive

/-!
# Schedules of the system

The moves that a run of the AP and the BSP is made of, cut at the events of the log.
-/

namespace VibeKernel

open Conc

variable {b : Build} {again : Bool} {ok : Cpu → Machine → Machine → Prop}

/-- An increment of the counter. -/
def counterPlan : ApRequestPlan where
  opcode := apRequestOpCounter
  serviceId := apRequestServiceCounter
  interfaceId := apRequestInterfaceCounterIncrement
  sequence := 1

/-- A build that waits for one loop only. -/
def hastyBuild : Build := { apRequestTimeoutLoops := 1 }

/-! ## Where a schedule changes over -/

def Event.isPublished (e : Event) : Bool := e matches .published ..

def Event.isVisited (e : Event) : Bool := e matches .visited ..

def Event.isClaimed (e : Event) : Bool := e matches .claimed ..

def Event.isLookedUp (e : Event) : Bool := e matches .lookedUp ..

def Event.isCompleted (e : Event) : Bool := e matches .completed ..

/-- The latest event is one that `p` admits. -/
def Machine.just (p : Event → Bool) (s : Machine) : Bool :=
  match s.log with
  | [] => false
  | e :: _ => p e

/-- Processor `t` goes on until an event that `p` admits. -/
def goesOn [∀ t s s', Decidable (ok t s s')] (t : Cpu) (p : Event → Bool) :
    System.Move (apSystem b again) ok :=
  .until t 4000 (Machine.just p)

/-- Processor `t` goes on as far as it can. -/
def goesToEnd [∀ t s s', Decidable (ok t s s')] (t : Cpu) : System.Move (apSystem b again) ok :=
  .turns t 4000

/-- The BSP is back from `run_ap_request_stream`. -/
def streamIsBack : Prog Machine BspPc → Bool
  | .ret (.streamReturned _ _ _) => true
  | _ => false

theorem streamIsBack_iff {p : Prog Machine BspPc} :
    streamIsBack p = true ↔ ∃ plan l result, p = .ret (.streamReturned plan l result) := by
  constructor
  · intro h
    unfold streamIsBack at h
    split at h
    · exact ⟨_, _, _, rfl⟩
    · cases h
  · rintro ⟨plan, l, result, rfl⟩
    rfl

/-- The BSP, between two calls, makes `call`. -/
def calls [∀ t s s', Decidable (ok t s s')] (call : BspCall) :
    System.Move (apSystem b true) ok where
  go c :=
    match (c.prog .bsp : Prog Machine BspPc) with
    | .ret .next =>
      if ok .bsp c.mem c.mem then
        some ⟨c.mem, Function.update c.prog .bsp (runCall b call : Prog Machine BspPc)⟩
      else none
    | _ => none
  sound {c c'} h := by
    split at h
    · rename_i hp
      split at h
      · rename_i hok
        obtain rfl := Option.some.inj h
        exact System.reach_of_choice hp rfl hok call
      · cases h
    · cases h

end VibeKernel
