/-!
# Protocol timing

Model of `include/Protocol/Control/ale_timing.h`: the constants the state machine compares
against, as the `uint32_t` milliseconds they are there, and `calc_calling_timeout_ms`. The
floating-point derivations (`Tw = 130.67 ms` and its multiples) are replaced by the integers they
are rounded to: `Tt = 1045`, `Twr_slow = 915`, `Twrt_slow = 1960`.
-/

namespace OpenALE

/-- `Trw_ms`: one redundant word. -/
abbrev trwMs : UInt32 := 392

/-- `Tlww_ms`. -/
abbrev tlwwMs : UInt32 := 392

/-- `Tdrw_ms`: two redundant words. -/
abbrev tdrwMs : UInt32 := 784

/-- `Twt_ms`: listen-before-transmit on an ALE-only channel. -/
abbrev twtMs : UInt32 := 784

/-- `Twt_shared_ms`. -/
abbrev twtSharedMs : UInt32 := 2000

/-- `Tt_ms`: blind tune. -/
abbrev ttMs : UInt32 := 1045

/-- `Twr_slow_int`. -/
abbrev twrSlowMs : UInt32 := 915

/-- `Twrt_slow_ms`, rounded. -/
abbrev twrtSlowMs : UInt32 := 1960

/-- `TT_NEXT_TRY_MS`. -/
abbrev ttNextTryMs : UInt32 := 20000

/-- `Twa_ms`. -/
abbrev twaMs : UInt32 := 30000

/-- `LINK_TIMEOUT_MS`. -/
abbrev linkTimeoutMs : UInt32 := 120000

/-- `IDLE_WARNING_LEAD_MS`. -/
abbrev idleWarningLeadMs : UInt32 := 30000

/-- `TX_DRAIN_TIMEOUT_MS`. -/
abbrev txDrainTimeoutMs : UInt32 := 10000

/-- `Tm_max_ms`. -/
abbrev tmMaxMs : UInt32 := 11760

/-- `TD5_MS`: the default dwell. -/
abbrev td5Ms : UInt32 := 200

/-- `MAX_SCANNING_CALL_ERRORS`. -/
abbrev maxScanningCallErrors : UInt8 := 3

/-- `calc_twce_ms`. -/
def calcTwceMs (nChannels : UInt32) : UInt32 := 2 * nChannels * tdrwMs

/-- `listening_response_wait_ms_`. -/
def listeningResponseWaitMs : UInt32 := twrtSlowMs + tdrwMs + (tdrwMs - tlwwMs)

/-- `wait_ack_start_wait_ms_`. -/
def waitAckStartWaitMs : UInt32 := twrSlowMs + tdrwMs + (tdrwMs - tlwwMs)

/-- `TimingParameters`. -/
structure TimingParameters where
  twa : UInt32 := twaMs
  tt : UInt32 := ttMs
  deriving Repr, DecidableEq

/-- `CallingBudgetParams`. -/
structure CallingBudgetParams where
  nChannels : UInt32
  targetScanChannels : UInt32
  leadingSeqWords : UInt32
  conclusionWords : UInt32
  messageWords : UInt32 := 0

/-- `calc_calling_timeout_ms`, in `uint32_t` arithmetic. -/
def calcCallingTimeoutMs (p : CallingBudgetParams) : UInt32 :=
  let tsc := p.targetScanChannels * 2 * trwMs
  let tlc := p.leadingSeqWords * trwMs
  let tx := p.conclusionWords * trwMs
  let msg := p.messageWords * trwMs
  let listen := twrtSlowMs + tdrwMs + 5 * trwMs + tlwwMs
  let perCh := twtMs + ttMs + tsc + tlc + msg + tx + listen
  let tack := tlc + tx
  perCh * p.nChannels + tack + 2000

end OpenALE
