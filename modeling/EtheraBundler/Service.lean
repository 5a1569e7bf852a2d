import EtheraBundler.OverRpc
import EtheraBundler.Rpc
import EtheraBundler.Serial
/-!
# The service

| here | there |
| --- | --- |
| `probe` | `startup::probe` (`startup.rs:25-71`), on an `AlloyProvider` |
| `setup`, `serve`, `mainProg` | `main` (`main.rs:22-96`) up to the bound server, and from there |
| `Host` | **what `main` takes from elsewhere**: `url`, `secp256k1`, the `Display` of an `Address` |
| `Service`, `Service.step` | `main` and the calls that its server hands to the bundler |
| `DiscoveryRpc` and the two traits | `discovery.rs:23-81` |

The errors are `anyhow`'s, outermost context first. What is logged is left out, and so are CORS and a
client that hangs up, which are the server's.

* `run_probe_ok` — what a passed probe has seen.
* `startup_of_after` — what comes before what in `main`.
* `service_sound` — **a service signs for the chain it probed**, and its calls are cancelled on the
  operator's signal only.
* `discovery_agrees` — **what a client discovers is what it is served**.
-/

namespace EtheraBundler

open BigEndian Interact

/-! ## The probe -/

abbrev Anyhow := List String

structure Host where
  /-- `rpc_url.parse::<Url>()`. -/
  parseUrl : String → Except String Unit
  /-- `PrivateKeySigner::from_bytes` and its `address()`. -/
  keyAddress : B256 → Except String Address
  /-- `address.to_string()`, with the checksum. -/
  checksum : Address → String

/-- `.context(..)` on a provider's error. -/
def probeFailed (method : String) (e : ProviderError) : Anyhow := [method ++ " probe failed", e.display]

/-- `probe` (`startup.rs:25-71`). The balance decides only what is logged. -/
def probe (H : Host) (chainId : U64) (entrypoint sequencer : Address) : Prog NodeOp NodeOp.Ans Anyhow Unit := do
  let actualChainId ← AlloyProvider.chainId.mapFail (probeFailed "eth_chainId")
  Prog.failIf (actualChainId ≠ chainId)
    ["chain id mismatch: config=" ++ toString chainId.toNat ++ ", rpc=" ++ toString actualChainId.toNat ++
      " - bundler would sign txs the chain rejects"]
  let code ← (AlloyProvider.getCode entrypoint).mapFail (probeFailed "eth_getCode(entrypoint)")
  Prog.failIf (code = [])
    ["EntryPoint " ++ H.checksum entrypoint ++ " has no code on chain " ++ toString chainId.toNat]
  let _ ← (AlloyProvider.balance sequencer).mapFail (probeFailed "eth_getBalance(sequencer)")
  return ()

/-- What a passed probe has seen. -/
def probedEvents (chainId : U64) (entrypoint sequencer : Address) (code : Bytes) (balance : U256) :
    Trace NodeOp NodeOp.Ans :=
  [⟨.getChainId, .ok chainId⟩, ⟨.getCodeAt entrypoint, .ok code⟩, ⟨.getBalance sequencer, .ok balance⟩]

theorem run_request_ok {ε : Type} {f : ProviderError → ε} {o : NodeOp} {t : Trace NodeOp NodeOp.Ans} {v : o.Val} :
    Run ((AlloyProvider.request o).mapFail f) t (.ok v) ↔ t = [⟨o, .ok v⟩] := by
  rw [run_mapFail_ok, run_request]
  constructor
  · rintro ⟨x, rfl, he⟩
    cases x with
    | ok w =>
      cases he
      rfl
    | error e => cases he
  · rintro rfl
    exact ⟨.ok v, rfl, rfl⟩

theorem run_failIf_ok {Op : Type} {Ans : Op → Type} {ε : Type} {c : Prop} [Decidable c] {e : ε} {t : Trace Op Ans}
    {u : Unit} : Run (Prog.failIf c e : Prog Op Ans ε Unit) t (.ok u) ↔ t = [] ∧ ¬ c := by
  rw [run_failIf]
  by_cases hc : c
  · simp [hc]
  · simp [hc]

/-- **A passed probe**: the node is on the chain, and the entry point is there. -/
theorem run_probe_ok {H : Host} {chainId : U64} {entrypoint sequencer : Address} {t : Trace NodeOp NodeOp.Ans}
    (h : Run (probe H chainId entrypoint sequencer) t (.ok ())) :
    ∃ code balance, code ≠ [] ∧ t = probedEvents chainId entrypoint sequencer code balance := by
  unfold probe at h
  obtain ⟨t₁, u₁, actual, rfl, h1, h6⟩ := run_bind_ok.1 h
  obtain ⟨t₂, u₂, _, rfl, h2, h7⟩ := run_bind_ok.1 h6
  obtain ⟨t₃, u₃, code, rfl, h3, h8⟩ := run_bind_ok.1 h7
  obtain ⟨t₄, u₄, _, rfl, h4, h9⟩ := run_bind_ok.1 h8
  obtain ⟨t₅, u₅, balance, rfl, h5, h10⟩ := run_bind_ok.1 h9
  obtain rfl := run_request_ok.1 h1
  obtain ⟨rfl, hchain⟩ := run_failIf_ok.1 h2
  obtain rfl := run_request_ok.1 h3
  obtain ⟨rfl, hcode⟩ := run_failIf_ok.1 h4
  obtain rfl := run_request_ok.1 h5
  obtain ⟨rfl, -⟩ := run_ret.1 h10
  rw [not_not] at hchain
  subst hchain
  exact ⟨code, balance, hcode, rfl⟩

/-! ## `main` -/

/-- What `main` asks of the node, the server, the operator and the runtime. -/
inductive MainOp where
  | node (o : NodeOp)
  /-- `module.merge(..)`. -/
  | merge (api : String)
  /-- `Server::builder().build(listen_addr)`. -/
  | bind (listenAddr : String)
  /-- `server.start(module)`. -/
  | start
  /-- `tokio::signal::ctrl_c()`. -/
  | ctrlC
  /-- `cancel.cancel()`. -/
  | cancel
  /-- `handle.stop().ok()`. -/
  | stop
  /-- `handle.stopped()`. -/
  | stopped

@[reducible] def MainOp.Ans : MainOp → Type
  | .node o => o.Ans
  | .merge _ => Except String Unit
  | .bind _ => Except String Unit
  | .ctrlC => Except String Unit
  | .start => Unit
  | .cancel => Unit
  | .stop => Unit
  | .stopped => Unit

abbrev MainTrace := Trace MainOp MainOp.Ans

abbrev MainM := Prog MainOp MainOp.Ans Anyhow

/-- `BundlerConfig` (`config.rs:23-60`), with the fields only `main` reads. -/
structure MainConfig where
  cfg : BundlerConfig
  execRpcUrl : String
  sequencerKey : B256
  listenAddr : String

/-- `result.context(msg)?`. -/
def orContext {α : Type} (msg : String) (r : Except String α) : MainM α := Prog.exit (r.mapError fun e => [msg, e])

/-- `main` up to the bound server (`main.rs:37-81`). The loaded signer's address is the outcome. -/
def setup (H : Host) (c : MainConfig) : MainM Address := do
  orContext "failed to construct execution-layer RPC provider"
    ((H.parseUrl c.execRpcUrl).mapError fun e => (ProviderError.transport e).display)
  let sequencer ← orContext "failed to load sequencer key"
    ((H.keyAddress c.sequencerKey).mapError fun e => (SignerError.invalidKey e).display)
  ((probe H c.cfg.chainId c.cfg.entrypointAddress sequencer).mapFail fun e => "startup probe failed" :: e).relabel
    .node fun _ y => y
  .ask (.merge "eth") (orContext "failed to merge eth discovery rpc")
  .ask (.merge "web3") (orContext "failed to merge web3 discovery rpc")
  .ask (.bind c.listenAddr) (orContext ("failed to bind JSON-RPC server on " ++ c.listenAddr))
  return sequencer

/-- The rest of `main` (`main.rs:82-95`). -/
def serve : MainM Unit :=
  .ask .start fun _ => do
    .ask .ctrlC (orContext "ctrl_c handler failed")
    .ask .cancel fun _ => .ask .stop fun _ => .ask .stopped .ret

def mainProg (H : Host) (c : MainConfig) : MainM Unit := do
  let _ ← setup H c
  serve

/-- The bundler `main` builds (`main.rs:57-60`). -/
def bundlerOf (H : Host) (c : MainConfig) (simulationsCode : Bytes) (build : BuildProfile) : Bundler where
  cfg := c.cfg
  signerAddress := (H.keyAddress c.sequencerKey).toOption.getD (.zero 20)
  simulationsCode := simulationsCode
  build := build

variable {H : Host} {c : MainConfig} {t : MainTrace} {q : MainM Unit}

/-- Before the server starts. -/
def MainOp.isSetup : MainOp → Prop
  | .node _ => True
  | .merge _ => True
  | .bind _ => True
  | _ => False

theorem only_setup : Only MainOp.isSetup (setup H c) := by
  unfold setup orContext
  refine Only.bind only_exit fun _ => Only.bind only_exit fun sequencer => ?_
  refine Only.bind (only_relabel fun _ => trivial) fun _ => ?_
  refine Only.bind ⟨trivial, fun _ => only_exit⟩ fun _ => Only.bind ⟨trivial, fun _ => only_exit⟩ fun _ => ?_
  exact Only.bind ⟨trivial, fun _ => only_exit⟩ fun _ => only_ret

/-- What `main` has seen of the node when the server starts. -/
structure Probed (H : Host) (c : MainConfig) (t : MainTrace) : Prop where
  key : ∃ sequencer, H.keyAddress c.sequencerKey = .ok sequencer
  chainId : ⟨.node .getChainId, .ok c.cfg.chainId⟩ ∈ t
  code : ∃ code, code ≠ [] ∧ ⟨.node (.getCodeAt c.cfg.entrypointAddress), .ok code⟩ ∈ t

theorem Probed.append {u : MainTrace} (h : Probed H c t) : Probed H c (t ++ u) where
  key := h.key
  chainId := List.mem_append_left _ h.chainId
  code := by
    obtain ⟨code, hcode, hm⟩ := h.code
    exact ⟨code, hcode, List.mem_append_left _ hm⟩

theorem mapError_ok {ε ε' α : Type} {f : ε → ε'} {r : Except ε α} {a : α} : r.mapError f = .ok a ↔ r = .ok a := by
  rcases r with e | a'
  · exact ⟨fun h => (by cases h), fun h => (by cases h)⟩
  · exact ⟨fun h => (by cases h; rfl), fun h => (by cases h; rfl)⟩

theorem run_orContext_ok {α : Type} {msg : String} {r : Except String α} {a : α} :
    Run (orContext msg r) t (.ok a) ↔ t = [] ∧ r = .ok a := by
  rw [orContext, run_exit, eq_comm (a := Except.ok a), mapError_ok]

theorem probed_of_setup {sequencer : Address} (h : Run (setup H c) t (.ok sequencer)) : Probed H c t := by
  unfold setup at h
  obtain ⟨t₁, u₁, _, rfl, -, h3⟩ := run_bind_ok.1 h
  obtain ⟨t₂, u₂, sequencer', rfl, h2, h5⟩ := run_bind_ok.1 h3
  obtain ⟨t₃, u₃, _, rfl, h4, -⟩ := run_bind_ok.1 h5
  obtain ⟨rfl, hkey⟩ := run_orContext_ok.1 h2
  obtain ⟨t, ht, hprobe⟩ := run_relabel h4
  obtain ⟨code, balance, hcode, rfl⟩ := run_probe_ok (run_mapFail_ok.1 hprobe)
  have hmem {e : Event NodeOp NodeOp.Ans} (he : e ∈ probedEvents c.cfg.chainId c.cfg.entrypointAddress sequencer' code
      balance) : ⟨.node e.1, e.2⟩ ∈ t₃ := mem_of_renames ht he
  refine ⟨⟨sequencer', mapError_ok.1 hkey⟩, ?_, code, hcode, ?_⟩
  · have hchain := hmem (e := ⟨.getChainId, .ok c.cfg.chainId⟩) (by simp [probedEvents])
    simp [hchain]
  · have hcode := hmem (e := ⟨.getCodeAt c.cfg.entrypointAddress, .ok code⟩) (by simp [probedEvents])
    simp [hcode]

/-- From the server's start on, the token fires after the operator's signal, and only a failed wait for it
ends `main` in an error. -/
theorem after_serve (h : After serve t q) :
    (⟨.cancel, ()⟩ ∈ t → ⟨.start, ()⟩ ∈ t ∧ ⟨.ctrlC, .ok ()⟩ ∈ t) ∧
      ∀ e, q = .fail e → ∃ msg, ⟨.ctrlC, .error msg⟩ ∈ t := by
  unfold serve at h
  rcases t with - | ⟨e₁, t⟩
  · obtain rfl := after_nil.1 h
    exact ⟨fun hm => (by cases hm), fun e he => (by cases he)⟩
  obtain ⟨_, rfl, h1⟩ := after_ask_cons.1 h
  rcases t with - | ⟨e₂, t⟩
  · obtain rfl := after_nil.1 h1
    exact ⟨fun hm => (by simp at hm), fun e he => (by cases he)⟩
  obtain ⟨signal, rfl, h2⟩ := after_ask_cons.1 h1
  cases signal with
  | error msg =>
    obtain ⟨rfl, -⟩ := after_fail.1 h2
    exact ⟨fun hm => (by simp at hm), fun e _ => ⟨msg, by simp⟩⟩
  | ok u =>
    refine ⟨fun _ => ⟨by simp, by simp⟩, fun e he => ?_⟩
    -- the token, the server and its tasks: none of them fails
    subst he
    have hend : Run (.ask .cancel fun _ => .ask .stop fun _ => .ask .stopped .ret) t (.error e) := h2
    obtain ⟨_, _, -, hstop⟩ := run_ask.1 hend
    obtain ⟨_, _, -, hstopped⟩ := run_ask.1 hstop
    obtain ⟨_, _, -, hret⟩ := run_ask.1 hstopped
    cases (run_ret.1 hret).2

/-- What `main`'s own history says. -/
structure Startup (H : Host) (c : MainConfig) (t : MainTrace) (q : MainM Unit) : Prop where
  probed : ⟨.start, ()⟩ ∈ t → Probed H c t
  started : ⟨.cancel, ()⟩ ∈ t → ⟨.start, ()⟩ ∈ t
  signalled : ⟨.cancel, ()⟩ ∈ t → ⟨.ctrlC, .ok ()⟩ ∈ t
  failed : ∀ e, q = .fail e → ⟨.start, ()⟩ ∉ t ∨ ∃ msg, ⟨.ctrlC, .error msg⟩ ∈ t

/-- **`main` starts its server after its probe only.** -/
theorem startup_of_after (h : After (mainProg H c) t q) : Startup H c t q := by
  rcases after_bind.1 h with ⟨p', hp, -⟩ | ⟨t₁, t₂, sequencer, rfl, h1, h2⟩
  · have hstart : ⟨.start, ()⟩ ∉ t := fun hm => only_setup.mem hp hm
    have hcancel : ⟨.cancel, ()⟩ ∉ t := fun hm => only_setup.mem hp hm
    exact ⟨fun hm => absurd hm hstart, fun hm => absurd hm hcancel, fun hm => absurd hm hcancel,
      fun _ _ => Or.inl hstart⟩
  · have hcancel : ⟨.cancel, ()⟩ ∉ t₁ := fun hm => only_setup.mem h1 hm
    obtain ⟨hserved, hfailed⟩ := after_serve h2
    have hlate (hm : ⟨.cancel, ()⟩ ∈ t₁ ++ t₂) := hserved ((List.mem_append.1 hm).resolve_left hcancel)
    refine ⟨fun _ => (probed_of_setup h1).append, fun hm => List.mem_append_right _ (hlate hm).1,
      fun hm => List.mem_append_right _ (hlate hm).2, fun e he => ?_⟩
    obtain ⟨msg, hmsg⟩ := hfailed e he
    exact Or.inr ⟨msg, List.mem_append_right _ hmsg⟩

/-! ## The service -/

/-- `main`, and the calls its server hands to the bundler. -/
structure Service (ι : Type) where
  hist : MainTrace
  main : MainM Unit
  pool : SubmitPool ι

inductive ServiceLabel (ι : Type) where
  /-- `main` is answered. -/
  | main (f : (o : MainOp) → o.Ans)
  /-- A call gets an answer, or is dropped. -/
  | call (l : Label ι Empty Unit Op Op.Ans)

/-- The server is told to start. -/
def MainOp.isStart : MainOp → Bool
  | .start => true
  | _ => false

/-- The token fires. -/
def Ledger.fire {ι : Type} (w : Ledger ι) : Ledger ι := { w with cancelled := true }

/-- `cancel.cancel()` (`main.rs:92`). -/
def MainOp.fires : MainOp → Bool
  | .cancel => true
  | _ => false

def MainOp.fire {ι : Type} (o : MainOp) (p : SubmitPool ι) : SubmitPool ι :=
  if o.fires then { p with world := p.world.fire } else p

/-- Whether a step is a call's. -/
def ofCall {ι : Type} : Label ι Empty Unit Op Op.Ans → Bool
  | .env _ => false
  | _ => true

namespace Service

variable {ι : Type}

/-- The server is up, and so is the process. -/
def serving (s : Service ι) : Bool :=
  s.hist.any (fun e => e.1.isStart) &&
    match s.main with
    | .ask _ _ => true
    | _ => false

variable [DecidableEq ι]

/-- One step of `main`, or of a call while it is served. Nothing but `main` fires the token. -/
def step (s : Service ι) : ServiceLabel ι → Option (Service ι)
  | .main f =>
    match s.main with
    | .ask o k => some ⟨s.hist ++ [⟨o, f o⟩], k (f o), o.fire s.pool⟩
    | _ => none
  | .call l =>
    if s.serving ∧ ofCall l then (ledgerRules.step s.pool l).map fun p => { s with pool := p } else none

end Service

section Runs

variable {ι : Type} [DecidableEq ι] {A : Alloy} {code : Bytes} {build : BuildProfile} {req : ι → Request} {n₀ : Nat}
  {s s' : Service ι}

/-- All that a step can do. -/
inductive Service.Moves (s : Service ι) : ServiceLabel ι → Service ι → Prop where
  | main (f : (o : MainOp) → o.Ans) (o : MainOp) (k : o.Ans → MainM Unit) (hcur : s.main = .ask o k) :
    Service.Moves s (.main f) ⟨s.hist ++ [⟨o, f o⟩], k (f o), o.fire s.pool⟩
  | call (l : Label ι Empty Unit Op Op.Ans) (p : SubmitPool ι) (hs : s.serving = true) (hl : ofCall l = true)
    (h : ledgerRules.step s.pool l = some p) : Service.Moves s (.call l) { s with pool := p }

theorem Service.step_moves {l : ServiceLabel ι} (h : s.step l = some s') : s.Moves l s' := by
  cases l with
  | main f =>
    simp only [Service.step] at h
    split at h
    · cases h
      exact .main f _ _ ‹_›
    · cases h
  | call l =>
    simp only [Service.step] at h
    split at h
    · rename_i hs
      obtain ⟨p, hp, rfl⟩ := Option.map_eq_some_iff.1 h
      exact .call l p hs.1 hs.2 hp
    · cases h

/-- Before `main`'s first question. -/
def Service.boot (H : Host) (c : MainConfig) (A : Alloy) (code : Bytes) (build : BuildProfile) (req : ι → Request)
    (n₀ : Nat) : Service ι :=
  ⟨[], mainProg H c, .start (calls A (bundlerOf H c code build) req) (.start n₀)⟩

/-- The states of all runs of the service `s₀`. -/
inductive Served (s₀ : Service ι) : Service ι → Prop where
  | init : Served s₀ s₀
  | step {s s' : Service ι} (l : ServiceLabel ι) (h : Served s₀ s) (hs : s.step l = some s') : Served s₀ s'

def Service.run (s : Service ι) : List (ServiceLabel ι) → Option (Service ι)
  | [] => some s
  | l :: ls => (s.step l).bind fun s' => s'.run ls

theorem Served.run {s₀ : Service ι} {ls : List (ServiceLabel ι)} (h : Served s₀ s) (hr : s.run ls = some s') :
    Served s₀ s' := by
  induction ls generalizing s with
  | nil =>
    cases hr
    exact h
  | cons l ls ih =>
    obtain ⟨s₁, h1, h2⟩ := Option.bind_eq_some_iff.1 hr
    exact ih (.step l h h1) h2

/-! ## What is served -/

theorem mem_start {t : MainTrace} (h : t.any (fun e => e.1.isStart) = true) : ⟨.start, ()⟩ ∈ t := by
  obtain ⟨⟨o, x⟩, hm, ho⟩ := List.any_eq_true.1 h
  cases o with
  | start => exact hm
  | _ => cases ho

omit [DecidableEq ι] in
theorem mem_start_of_serving (h : s.serving = true) : ⟨.start, ()⟩ ∈ s.hist := by
  rw [Service.serving, Bool.and_eq_true] at h
  exact mem_start h.1

theorem ledger_cancelled {p p' : SubmitPool ι} {l : Label ι Empty Unit Op Op.Ans} (hl : ofCall l = true)
    (h : ledgerRules.step p l = some p') : p'.world.cancelled = p.world.cancelled := by
  cases step_moves h with
  | answer i f o k w live hcur hw => exact ledgerAnswer_cancelled hw
  | act i l => exact nomatch l
  | drop i w live hw =>
    obtain ⟨-, -, rfl⟩ := ledger_drop_iff.1 hw
    rfl
  | env e w hw => cases hl

/-- What holds at any time. -/
structure Service.Sound (H : Host) (c : MainConfig) (A : Alloy) (code : Bytes) (build : BuildProfile)
    (req : ι → Request) (n₀ : Nat) (s : Service ι) : Prop where
  main : After (mainProg H c) s.hist s.main
  calls : Reachable A (bundlerOf H c code build) req n₀ s.pool
  cancelled : s.pool.world.cancelled = true ↔ ⟨.cancel, ()⟩ ∈ s.hist
  idle : ⟨.start, ()⟩ ∉ s.hist → ∀ i, (s.pool.calls i).hist = [] ∧ (s.pool.calls i).dropped = false

theorem sound_of_served (h : Served (.boot H c A code build req n₀) s) : s.Sound H c A code build req n₀ := by
  induction h with
  | init => exact ⟨after_nil.2 rfl, .init, by simp [Service.boot, Pool.start, Ledger.start], fun _ _ => ⟨rfl, rfl⟩⟩
  | @step s s' l h hs ih =>
    cases Service.step_moves hs with
    | main f o k hcur =>
      have hafter := ih.main
      rw [hcur] at hafter
      have hstartup := startup_of_after (hafter.snoc (f o))
      by_cases ho : o = .cancel
      · subst ho
        refine ⟨hafter.snoc _, .step (.env ()) ih.calls rfl rfl, ?_, fun hm => absurd (hstartup.started (by simp)) hm⟩
        exact iff_of_true rfl (by simp)
      · have hfire : o.fire s.pool = s.pool := by
          cases o with
          | cancel => exact absurd rfl ho
          | _ => rfl
        refine ⟨hafter.snoc _, ?_, ?_, fun hm => ?_⟩
        · rw [hfire]
          exact ih.calls
        · rw [hfire, ih.cancelled, List.mem_append, List.mem_singleton]
          exact ⟨Or.inl, fun hm => hm.resolve_right fun he => ho (congrArg Sigma.fst he).symm⟩
        · rw [hfire]
          exact ih.idle fun hm' => hm (List.mem_append_left _ hm')
    | call l p hserving hl hp =>
      refine ⟨ih.main, .step l ih.calls rfl hp, ?_, fun hm => absurd (mem_start_of_serving hserving) hm⟩
      rw [← ih.cancelled, ledger_cancelled hl hp]

/-- No call asks anything before the probe has passed. -/
theorem probed_of_asked (h : Served (.boot H c A code build req n₀) s) {i : ι} (hi : (s.pool.calls i).hist ≠ []) :
    Probed H c s.hist := by
  have hsound := sound_of_served h
  by_cases hstart : ⟨.start, ()⟩ ∈ s.hist
  · exact (startup_of_after hsound.main).probed hstart
  · exact absurd (hsound.idle hstart i).1 hi

/-- Only a fired token drops a call. -/
theorem cancelled_of_dropped {b : Bundler} {p : SubmitPool ι} (h : Reachable A b req n₀ p) {i : ι}
    (hd : (p.calls i).dropped = true) : p.world.cancelled = true := by
  refine h.inv (I := fun p => ∀ i, (p.calls i).dropped = true → p.world.cancelled = true) ?_ ?_ i hd
  · intro i hi
    cases hi
  · intro p p' l _ _ hm hI j hj
    cases hm with
    | answer i f o k w live hcur hw =>
      rw [Pool.answered_world, ledgerAnswer_cancelled hw]
      by_cases hji : j = i
      · subst hji
        rw [Pool.answered_self, live] at hj
        cases hj
      · rw [Pool.answered_of_ne _ _ _ _ hji] at hj
        exact hI j hj
    | act i l => exact nomatch l
    | drop i w live hw =>
      rw [Pool.cut_world, (ledger_drop_iff.1 hw).2.2]
      exact (ledger_drop_iff.1 hw).1
    | env e w hw =>
      cases hw
      rfl

/-- What a call signs is for the configured chain, and goes to the configured entry point. -/
theorem signed_target {b : Bundler} {r : Request} {t : BundlerTrace} {q : M SignedTxResp} {env : TxEnvelope}
    (h : After (r.call A b) t q) (hs : signedWith env ∈ t) :
    env.tx.chainId = b.cfg.chainId ∧ env.tx.to = .call b.cfg.entrypointAddress := by
  obtain ⟨t₁, t₂, -, hasks⟩ := h.asks_of_mem hs
  obtain ⟨-, settled, nonce, hb, -⟩ := asks_sign_iff.1 hasks
  rw [buildTx_ok, Except.ok.injEq] at hb
  exact ⟨by rw [← hb], by rw [← hb]⟩

/-- **A service signs for the chain it probed.** In every run of `main` and its calls, in any interleaving,
with any answers: the pool of its calls is one of those whose runs the bundler's results are about; no call
asks anything before the probe has passed; what a call signs carries the chain id that the node gave the
probe, and goes to an address at which the probe found code; a call is answered `Cancelled` on the
operator's signal only; and a `main` that failed has served nothing, or could not wait for that signal. -/
theorem service_sound (H : Host) (c : MainConfig) (A : Alloy) (code : Bytes) (build : BuildProfile)
    (req : ι → Request) (n₀ : Nat) (s : Service ι) (h : Served (.boot H c A code build req n₀) s) :
    Reachable A (bundlerOf H c code build) req n₀ s.pool ∧
    (∀ i, (s.pool.calls i).hist ≠ [] → Probed H c s.hist) ∧
    (∀ i env, signedWith env ∈ (s.pool.calls i).hist → ⟨.node .getChainId, .ok env.tx.chainId⟩ ∈ s.hist ∧
      ∃ entrypoint found, env.tx.to = .call entrypoint ∧ found ≠ [] ∧
        ⟨.node (.getCodeAt entrypoint), .ok found⟩ ∈ s.hist) ∧
    (∀ i, returned (s.pool.calls i) = some (.error (.err .cancelled)) → ⟨.ctrlC, .ok ()⟩ ∈ s.hist) ∧
    ∀ e, s.main = .fail e → (∀ i, (s.pool.calls i).hist = []) ∨ ∃ msg, ⟨.ctrlC, .error msg⟩ ∈ s.hist := by
  have hsound := sound_of_served h
  have hstartup := startup_of_after hsound.main
  have hprobed : ∀ i, (s.pool.calls i).hist ≠ [] → Probed H c s.hist := fun i hi => probed_of_asked h hi
  refine ⟨hsound.calls, hprobed, fun i env henv => ?_, fun i hi => ?_, fun e he => ?_⟩
  · obtain ⟨hchain, hto⟩ := signed_target (hsound.calls.after i) henv
    have hp := hprobed i (List.ne_nil_of_mem henv)
    obtain ⟨found, hfound, hm⟩ := hp.code
    refine ⟨?_, _, found, hto, hfound, hm⟩
    rw [hchain]
    exact hp.chainId
  · have hdropped := (returned_cancelled_iff hsound.calls i).1 hi
    exact hstartup.signalled (hsound.cancelled.1 (cancelled_of_dropped hsound.calls hdropped))
  · rcases hstartup.failed e he with hstart | hsignal
    · exact Or.inl fun i => (hsound.idle hstart i).1
    · exact Or.inr hsignal

/-- A host on which every address and key is good, and a node on the configured chain. -/
def testHost : Host where
  parseUrl _ := .ok ()
  keyAddress _ := .ok testSigner
  checksum := debugHex

def testMain : MainConfig where
  cfg := testConfig
  execRpcUrl := "http://127.0.0.1:8545"
  sequencerKey := .zero 32
  listenAddr := "0.0.0.0:8082"

def mainAnswer : (o : MainOp) → o.Ans
  | .node o => rawMockAnswer (.node o)
  | .merge _ => .ok ()
  | .bind _ => .ok ()
  | .ctrlC => .ok ()
  | .start => ()
  | .cancel => ()
  | .stop => ()
  | .stopped => ()

/-- Up to the started server, three calls, and the operator's signal. -/
def serviceRun : List (ServiceLabel (Fin 3)) :=
  List.replicate 7 (.main mainAnswer) ++ threeCallsRun.map .call ++ List.replicate 2 (.main mainAnswer)

/-- The first call has returned its response, two transactions were accepted, and the token has fired. -/
theorem exists_served_threeCalls : ∃ s : Service (Fin 3),
    Served (.boot testHost testMain alloy [0x60, 0x80] .release threeCalls 7) s ∧ s.pool.world.cancelled = true ∧
      s.pool.world.accepted ≠ [] ∧ ∃ resp, returned (s.pool.calls 0) = some (.ok resp) := by
  have hrun : ((Service.boot testHost testMain alloy [0x60, 0x80] .release threeCalls 7).run serviceRun).map
      (fun s => s.pool.world.cancelled && !s.pool.world.accepted.isEmpty &&
        (returned (s.pool.calls 0)).any (·.toBool)) = some true := by decide
  obtain ⟨s, hs, hp⟩ := Option.map_eq_some_iff.1 hrun
  rw [Bool.and_eq_true, Bool.and_eq_true, Bool.not_eq_true', List.isEmpty_eq_false_iff] at hp
  obtain ⟨r, hr, hok⟩ := (Option.any_eq_true _ _).1 hp.2
  cases r with
  | error e => cases hok
  | ok resp => exact ⟨s, .run .init hs, hp.1.1, hp.1.2, resp, hr⟩

theorem service_sound_threeCalls : ∃ s : Service (Fin 3),
    Served (.boot testHost testMain alloy [0x60, 0x80] .release threeCalls 7) s ∧ s.pool.world.cancelled = true ∧
    ∃ i env, (i, alloy.encoded2718 env) ∈ s.pool.world.accepted ∧ ⟨.node .getChainId, .ok env.tx.chainId⟩ ∈ s.hist := by
  obtain ⟨s, hs, hc, hne, -⟩ := exists_served_threeCalls
  obtain ⟨hreach, -, htarget, -, -⟩ := service_sound testHost testMain alloy [0x60, 0x80] .release threeCalls 7 s hs
  obtain ⟨sent, hsent⟩ := List.exists_mem_of_ne_nil _ hne
  obtain ⟨env, hraw, hsigned, -⟩ := exists_acceptedAs hreach hsent
  refine ⟨s, hs, hc, sent.1, env, ?_, (htarget _ env hsigned).1⟩
  rw [← hraw]
  exact hsent

/-! ## Discovery -/

/-- `CARGO_PKG_VERSION`. -/
def PKG_VERSION : String := "0.1.0"

structure DiscoveryRpc where
  chainId : U64
  entrypoint : Address
  clientVersion : String

/-- `DiscoveryRpc::new` (`discovery.rs:52-60`). -/
def DiscoveryRpc.new (chainId : U64) (entrypoint : Address) : DiscoveryRpc where
  chainId := chainId
  entrypoint := entrypoint
  clientVersion := "ethera-bundler/v" ++ PKG_VERSION

/-- `eth_chainId` (`discovery.rs:65-67`). -/
def EthDiscoveryApi.chainId (d : DiscoveryRpc) : String := Hex.quantity d.chainId.toNat

/-- `eth_supportedEntryPoints` (`discovery.rs:69-71`). -/
def EthDiscoveryApi.supportedEntryPoints (d : DiscoveryRpc) : List Address := [d.entrypoint]

/-- `web3_clientVersion` (`discovery.rs:76-78`). -/
def Web3DiscoveryApi.clientVersion (d : DiscoveryRpc) : String := d.clientVersion

/-- What `main` serves beside the bundler (`main.rs:62`). -/
def discoveryOf (c : MainConfig) : DiscoveryRpc := .new c.cfg.chainId c.cfg.entrypointAddress

/-- `WrongChainId` is told of other chains only. -/
theorem run_wrongChainId {b : Bundler} {ops : List UserOpV07} {opts : BuildOpts} {t : BundlerTrace} {expected got : U64}
    (h : Run (buildInner A b ops opts) t (.error (.err (.wrongChainId expected got)))) :
    expected = b.cfg.chainId ∧ got = opts.chainId ∧ opts.chainId ≠ b.cfg.chainId := by
  have hcall := run_buildInner_cases h
  generalize hr : Except.error (Exit.err (.wrongChainId expected got)) = r at hcall
  cases hcall with
  | insane e he =>
    cases hr
    unfold sanity at he
    split at he
    · cases he
      exact ⟨rfl, rfl, ‹_›⟩
    split at he
    · cases he
    split at he
    · cases he
    · cases he
  | unprepared t x hx =>
    cases hr
    cases early_prepare t _ hx
  | unsigned s u x hu =>
    cases hr
    cases hu with
    | unbuildable nonce e he =>
      rw [buildTx_ok s] at he
      cases he
  | signed s u v tx w hu hv =>
    cases hv <;> cases hr

/-- A call for another chain asks nothing. -/
theorem call_wrongChainId {b : Bundler} {r : Request} (hne : r.opts.chainId ≠ b.cfg.chainId) :
    r.call A b = .fail (.err (.wrongChainId b.cfg.chainId r.opts.chainId)) := by
  unfold Request.call buildInner sanity
  rw [if_pos hne]
  rfl

theorem run_target {b : Bundler} {ops : List UserOpV07} {opts : BuildOpts} {t : BundlerTrace} {resp : SignedTxResp}
    (h : Run (buildInner A b ops opts) t (.ok resp)) :
    resp.chainId = b.cfg.chainId ∧ resp.to = b.cfg.entrypointAddress := by
  obtain ⟨s, nonce, env, submitted, receipt, -, rfl, -⟩ := run_buildInner_ok h
  exact ⟨rfl, rfl⟩

/-- **What a client discovers is what it is served.** The chain id is told as a minimal quantity, and reads
back as the one that the probe was told; at every entry point told the probe found code. In every run, a
call for any other chain asks nothing and ends in `WrongChainId`, or in `Cancelled`; one for that chain does
not end in `WrongChainId`; and a result is for that chain and one of those entry points. -/
theorem discovery_agrees (H : Host) (c : MainConfig) (A : Alloy) (code : Bytes) (build : BuildProfile)
    (req : ι → Request) (n₀ : Nat) (s : Service ι) (h : Served (.boot H c A code build req n₀) s) :
    Hex.Minimal (EthDiscoveryApi.chainId (discoveryOf c)) ∧
    ∃ chain : U64, Hex.ofQuantity (EthDiscoveryApi.chainId (discoveryOf c)) = some chain.toNat ∧
      (s.serving = true → ⟨.node .getChainId, .ok chain⟩ ∈ s.hist ∧
        ∀ entrypoint ∈ EthDiscoveryApi.supportedEntryPoints (discoveryOf c), ∃ found, found ≠ [] ∧
          ⟨.node (.getCodeAt entrypoint), .ok found⟩ ∈ s.hist) ∧
      ∀ i r, returned (s.pool.calls i) = some r →
        ((req i).opts.chainId ≠ chain → (s.pool.calls i).hist = [] ∧
          (r = .error (.err (.wrongChainId chain (req i).opts.chainId)) ∨ r = .error (.err .cancelled))) ∧
        (∀ expected got, r = .error (.err (.wrongChainId expected got)) → (req i).opts.chainId ≠ chain) ∧
        ∀ resp, r = .ok resp → resp.chainId = chain ∧
          resp.to ∈ EthDiscoveryApi.supportedEntryPoints (discoveryOf c) := by
  have hsound := sound_of_served h
  refine ⟨Hex.minimal_quantity _, c.cfg.chainId, Hex.ofQuantity_quantity _, fun hs => ?_, fun i r hr => ?_⟩
  · have hp := (startup_of_after hsound.main).probed (mem_start_of_serving hs)
    refine ⟨hp.chainId, fun entrypoint he => ?_⟩
    obtain rfl := List.mem_singleton.1 he
    exact hp.code
  have hrun := run_of_returned hsound.calls hr
  refine ⟨fun hne => ?_, fun expected got he => ?_, fun resp he => ?_⟩
  · have hcall := call_wrongChainId (A := A) (b := bundlerOf H c code build) hne
    have hafter : After ((req i).call A (bundlerOf H c code build)) (s.pool.calls i).hist (s.pool.calls i).cur :=
      hsound.calls.after i
    rw [hcall] at hafter
    refine ⟨(after_fail.1 hafter).1, ?_⟩
    rcases hrun with ⟨hc, -⟩ | hrun
    · exact Or.inr hc
    · rw [hcall] at hrun
      exact Or.inl (run_fail.1 hrun).2
  · rcases hrun with ⟨hc, -⟩ | hrun
    · rw [hc] at he
      cases he
    · rw [he] at hrun
      exact (run_wrongChainId hrun).2.2
  · rcases hrun with ⟨hc, -⟩ | hrun
    · rw [hc] at he
      cases he
    · rw [he] at hrun
      obtain ⟨hchain, hto⟩ := run_target hrun
      exact ⟨hchain, by rw [hto]; exact List.mem_cons_self⟩

/-- The three calls are for the chain told. -/
theorem discovery_agrees_threeCalls : ∃ (s : Service (Fin 3)) (resp : SignedTxResp),
    Served (.boot testHost testMain alloy [0x60, 0x80] .release threeCalls 7) s ∧
    returned (s.pool.calls 0) = some (.ok resp) ∧
    Hex.ofQuantity (EthDiscoveryApi.chainId (discoveryOf testMain)) = some resp.chainId.toNat := by
  obtain ⟨s, hs, -, -, resp, hr⟩ := exists_served_threeCalls
  obtain ⟨-, chain, hchain, -, hcalls⟩ :=
    discovery_agrees testHost testMain alloy [0x60, 0x80] .release threeCalls 7 s hs
  exact ⟨s, resp, hs, hr, by rw [((hcalls 0 _ hr).2.2 resp rfl).1, hchain]⟩

end Runs

end EtheraBundler
