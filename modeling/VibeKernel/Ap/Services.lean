import VibeKernel.Ap.Request

/-!
# Services

The registry of `ap_services.c` and the lookups in it. What a handler does to the memory is part
of the AP's program; here a handler is only a name.
-/

namespace VibeKernel

/-- The handlers of `ap_services.c`. -/
inductive ApRequestHandler
  | pingRequest
  | counterIncrement
deriving DecidableEq, Repr

/-- `VIBE_AP_REQUEST_FAULT_TEST`. -/
inductive ApRequestFaultTest
  | none
  | ud2
  | hang
deriving DecidableEq, Repr

/-- What is fixed while the system runs: the macros that the request path reads, and the index of
the context it serves. -/
structure Build where
  apContextIndex : UInt32 := 0
  apRequestTimeoutLoops : UInt32 := 100000000
  bspWaitTimerTimeoutStep : UInt32 := 100000
  apPingServiceOwnerIndex : UInt32 := 0
  apCounterServiceOwnerIndex : UInt32 := 0
  apRequestFaultTest : ApRequestFaultTest := .none

structure ApServiceRegistryEntry where
  serviceId : UInt64
  interfaceId : UInt64
  ownerContextIndex : UInt32
  handler : ApRequestHandler
deriving DecidableEq, Repr

inductive ApServiceLookupStatus
  | ok
  | unknownService
  | unknownInterface
deriving DecidableEq, Repr

/-- `ap_service_registry`. -/
def apServiceRegistry (b : Build) : List ApServiceRegistryEntry :=
  [⟨apRequestServicePing, apRequestInterfacePing, b.apPingServiceOwnerIndex, .pingRequest⟩,
   ⟨apRequestServiceCounter, apRequestInterfaceCounterIncrement, b.apCounterServiceOwnerIndex,
    .counterIncrement⟩]

/-- `find_ap_service`. -/
def findApService (b : Build) (serviceId interfaceId : UInt64) : Option ApServiceRegistryEntry :=
  (apServiceRegistry b).find? fun e => e.serviceId == serviceId && e.interfaceId == interfaceId

/-- The loop of `classify_ap_service_lookup`. -/
def classifyLoop (serviceId interfaceId : UInt64) :
    List ApServiceRegistryEntry → Bool → ApServiceLookupStatus
  | [], serviceSeen => if serviceSeen then .unknownInterface else .unknownService
  | e :: es, serviceSeen =>
    if e.serviceId != serviceId then classifyLoop serviceId interfaceId es serviceSeen
    else if e.interfaceId == interfaceId then .ok
    else classifyLoop serviceId interfaceId es true

/-- `classify_ap_service_lookup`. -/
def classifyApServiceLookup (b : Build) (serviceId interfaceId : UInt64) : ApServiceLookupStatus :=
  classifyLoop serviceId interfaceId (apServiceRegistry b) false

/-- `find_ap_request_handler`. -/
def findApRequestHandler (b : Build) (serviceId interfaceId : UInt64) : Option ApRequestHandler :=
  (findApService b serviceId interfaceId).map (·.handler)

/-- `ap_dispatch_miss_result_code`. -/
def apDispatchMissResultCode (b : Build) (serviceId interfaceId : UInt64) : UInt32 :=
  if classifyApServiceLookup b serviceId interfaceId = .unknownService then serviceId.toUInt32
  else interfaceId.toUInt32

/-- `ap_request_is_counter_increment`, on the three fields it reads. -/
def apRequestIsCounterIncrement (r : ApRequestHeader) : Bool :=
  r.serviceId == apRequestServiceCounter && r.interfaceId == apRequestInterfaceCounterIncrement
    && r.opcode == apRequestOpCounter

/-- The counter handler is reached through its own pair of ids and no other. -/
theorem findApRequestHandler_eq_counterIncrement_iff {b : Build} {s i : UInt64} :
    findApRequestHandler b s i = some .counterIncrement ↔
      s = apRequestServiceCounter ∧ i = apRequestInterfaceCounterIncrement := by
  constructor
  · intro h
    simp only [findApRequestHandler, findApService, apServiceRegistry, List.find?] at h
    split at h
    · simp at h
    · split at h
      · rename_i h2
        simp only [Bool.and_eq_true, beq_iff_eq] at h2
        exact ⟨h2.1.symm, h2.2.symm⟩
      · simp at h
  · rintro ⟨rfl, rfl⟩
    rfl

/-- What the BSP counts as an increment is one for the AP. -/
theorem findApRequestHandler_of_isCounterIncrement {b : Build} {r : ApRequestHeader}
    (h : apRequestIsCounterIncrement r = true) :
    findApRequestHandler b r.serviceId r.interfaceId = some .counterIncrement := by
  simp only [apRequestIsCounterIncrement, Bool.and_eq_true, beq_iff_eq] at h
  exact findApRequestHandler_eq_counterIncrement_iff.2 h.1

/-- The two lookups agree on which pairs are registered. -/
theorem classifyApServiceLookup_eq_ok_iff {b : Build} {s i : UInt64} :
    classifyApServiceLookup b s i = .ok ↔ (findApService b s i).isSome := by
  have key : ∀ (es : List ApServiceRegistryEntry) (seen : Bool), classifyLoop s i es seen = .ok ↔
      (es.find? fun e => e.serviceId == s && e.interfaceId == i).isSome := by
    intro es
    induction es with
    | nil => intro seen; cases seen <;> simp [classifyLoop]
    | cons e es ih =>
      intro seen
      by_cases hs : e.serviceId = s <;> by_cases hi : e.interfaceId = i <;>
        simp [classifyLoop, hs, hi, ih]
  exact key _ _

end VibeKernel
