import NetTester.Size

namespace NetTester

inductive Mode
  | client
  | server
deriving DecidableEq, Repr

inductive Verify
  | none
  | first
  | all
deriving DecidableEq, Repr

inductive Direction
  | rx
  | tx
  | both
deriving DecidableEq, Repr

inductive ShutdownPolicy
  | waitForPeer
  | sendComplete
  | receiveComplete
deriving DecidableEq, Repr

inductive Protocol
  | udp
  | tcp
deriving DecidableEq, Repr

/-- The duration margin counts microseconds; `none` is a special value such as `not_a_date_time`. -/
structure SessionConfiguration where
  mode : Mode
  verify : Verify
  direction : Direction
  endpoint : String
  sendBandwidth : Size
  receiveBandwidth : Size
  bandwidthSamplingFrequency : Nat
  windows : Size
  size : Size
  packetSize : Range Size
  durationMargin : Option Int
  shutdownPolicy : ShutdownPolicy
  protocol : Protocol
deriving DecidableEq

/-- The options of one line once stored: those without a default may be absent. -/
structure VariablesMap where
  connect : Option String
  listen : Option String
  size : Option Size
  protocol : Protocol
  txBandwidth : Size
  rxBandwidth : Size
  bandwidthSamplingFrequency : Nat
  verify : Verify
  mode : Direction
  windows : Size
  durationMargin : Option Int
  maxDatagramSize : Range Size
  shutdownPolicy : ShutdownPolicy

/-- `po::notify`: every stored option is written to the field it is bound to. Both `--connect` and
`--listen` are bound to the endpoint, and they are written in the order of their names. -/
def notify (args : VariablesMap) (c : SessionConfiguration) : SessionConfiguration :=
  { c with
    endpoint := args.listen.getD (args.connect.getD c.endpoint)
    size := args.size.getD c.size
    protocol := args.protocol
    sendBandwidth := args.txBandwidth
    receiveBandwidth := args.rxBandwidth
    bandwidthSamplingFrequency := args.bandwidthSamplingFrequency
    verify := args.verify
    direction := args.mode
    windows := args.windows
    durationMargin := args.durationMargin
    packetSize := args.maxDatagramSize
    shutdownPolicy := args.shutdownPolicy }

def fillConfiguration (c : SessionConfiguration) (args : VariablesMap) :
    Except String SessionConfiguration :=
  let c := notify args c
  if args.connect.isSome ∧ args.listen.isSome then
    .error "--connect and --listen are mutually exclusive"
  else if args.bandwidthSamplingFrequency = 0 then
    .error "invalid --bandwidth-sampling-frequency"
  else if args.size.isNone ∨ args.size.any (·.value = 0) then
    .error "--size is required"
  else if c.direction = .tx ∧ c.shutdownPolicy = .receiveComplete then
    .error "TX mode isn't compatible with shutdown policy receive_complete"
  else if c.direction = .rx ∧ c.shutdownPolicy = .sendComplete then
    .error "RX mode isn't compatible with shutdown policy send_complete"
  else if args.connect.isSome then
    .ok { c with mode := .client }
  else if args.listen.isSome then
    .ok { c with mode := .server }
  else
    .error "--connect or --listen are required"

/-- What passed the checks, and what they leave: all but the mode is what was stored. -/
theorem fillConfiguration_ok {c c' : SessionConfiguration} {args : VariablesMap}
    (h : fillConfiguration c args = .ok c') :
    args.bandwidthSamplingFrequency ≠ 0 ∧ (∃ size, args.size = some size ∧ size.value ≠ 0) ∧
      ¬(args.mode = .tx ∧ args.shutdownPolicy = .receiveComplete) ∧
      ¬(args.mode = .rx ∧ args.shutdownPolicy = .sendComplete) ∧
      ∃ mode, c' = { notify args c with mode := mode } := by
  simp only [fillConfiguration] at h
  split at h
  next => cases h
  next =>
  split at h
  next => cases h
  next frequency =>
  split at h
  next => cases h
  next size =>
  split at h
  next => cases h
  next tx =>
  split at h
  next => cases h
  next rx =>
  have positive : ∃ size, args.size = some size ∧ size.value ≠ 0 := by
    cases hs : args.size with
    | none => simp [hs] at size
    | some s => exact ⟨s, rfl, by simpa [hs] using size⟩
  refine ⟨frequency, positive, tx, rx, ?_⟩
  split at h
  next => exact ⟨_, (Except.ok.inj h).symm⟩
  next =>
  split at h
  next => exact ⟨_, (Except.ok.inj h).symm⟩
  next => cases h

/-- A configuration that some line of options can produce. -/
def Accepted (c : SessionConfiguration) : Prop :=
  ∃ previous args, fillConfiguration previous args = .ok c

/-- What the checks leave: the mode is free, since it follows from the option that was given. -/
theorem accepted_iff {c : SessionConfiguration} : Accepted c ↔
    c.bandwidthSamplingFrequency ≠ 0 ∧ c.size.value ≠ 0 ∧
      ¬(c.direction = .tx ∧ c.shutdownPolicy = .receiveComplete) ∧
      ¬(c.direction = .rx ∧ c.shutdownPolicy = .sendComplete) := by
  constructor
  · rintro ⟨previous, args, h⟩
    obtain ⟨frequency, ⟨size, found, positive⟩, tx, rx, mode, rfl⟩ := fillConfiguration_ok h
    exact ⟨frequency, by simpa [notify, found] using positive, tx, rx⟩
  · rintro ⟨frequency, size, tx, rx⟩
    refine ⟨c, ⟨if c.mode = .client then some c.endpoint else none,
      if c.mode = .client then none else some c.endpoint, some c.size, c.protocol,
      c.sendBandwidth, c.receiveBandwidth, c.bandwidthSamplingFrequency, c.verify, c.direction,
      c.windows, c.durationMargin, c.packetSize, c.shutdownPolicy⟩, ?_⟩
    cases hm : c.mode <;> simp [fillConfiguration, notify, frequency, size, tx, rx, hm] <;>
      cases c <;> simp_all

/-- The configuration of a line that connects and gives a size, with the defaults of the options. -/
def defaultConfiguration (endpoint : String) (size : Size) : SessionConfiguration where
  mode := .client
  verify := .none
  direction := .both
  endpoint := endpoint
  sendBandwidth := ⟨128 * 1000 * 1000, .si, by decide⟩
  receiveBandwidth := ⟨128 * 1000 * 1000, .si, by decide⟩
  bandwidthSamplingFrequency := 1000
  windows := .zero
  size := size
  packetSize := ⟨⟨(1 <<< 16) - 64, .iec, by decide⟩, ⟨(1 <<< 16) - 64, .iec, by decide⟩⟩
  durationMargin := none
  shutdownPolicy := .sendComplete
  protocol := .tcp

/-- The defaults pass the checks. -/
theorem accepted_default (endpoint : String) {size : Size} (positive : size.value ≠ 0) :
    Accepted (defaultConfiguration endpoint size) :=
  accepted_iff.mpr ⟨by simp [defaultConfiguration], positive, by simp [defaultConfiguration],
    by simp [defaultConfiguration]⟩

end NetTester
