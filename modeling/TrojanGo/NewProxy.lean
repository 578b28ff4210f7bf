import TrojanGo.Config
import TrojanGo.Stacks

/-!
# From configuration data to a proxy

`NewProxyFromConfigData(data, isJSON)` decodes the whole configuration into a fresh context,
takes the `PROXY` config out of it with a type assertion, and calls the proxy creator
registered under its upper-cased `run_type`. Each config is decoded through the pointer its
creator made, so with the `PROXY` creator registered the assertion never panics
(`newProxyFromConfigData_cases`).
-/

set_option autoImplicit false

namespace TrojanGo.NewProxy
open TrojanGo.Stream TrojanGo.Config TrojanGo.Stacks

/-- `proxy.Config`: `RunType`, `LogLevel` and `LogFile`. -/
structure ProxyConfig where
  runType : String
  logLevel : Int
  logFile : String
  deriving DecidableEq, Repr

/-- What the `proxy` package's config creator makes: `&Config{LogLevel: 1}`. -/
def defaultProxyConfig : ProxyConfig := ⟨"", 1, ""⟩

/-- The `interface{}` values the context holds: a `*proxy.Config`, or a value of another type
(another module's config, the proxy's ID). -/
abbrev Value (W : Type) := ProxyConfig ⊕ W

/-- `json.Unmarshal` or `yaml.Unmarshal` into the pointer a creator made: it fills the value the
pointer points to, `proxy` for a `*proxy.Config` and `other` for any other type. -/
structure Unmarshal (W : Type) where
  proxy : Bytes → ProxyConfig → Except GoError ProxyConfig
  other : Bytes → W → Except GoError W

variable {W Srv Cli : Type}

/-- `Unmarshal(data, config)`: the decoded value has the type of the pointer. -/
def Unmarshal.run (u : Unmarshal W) (data : Bytes) : Value W → Except GoError (Value W)
  | .inl c => Sum.inl <$> u.proxy data c
  | .inr w => Sum.inr <$> u.other data w

theorem Unmarshal.run_inl (u : Unmarshal W) (data : Bytes) {c : ProxyConfig} {v : Value W}
    (h : u.run data (.inl c) = .ok v) : ∃ c', v = .inl c' := by
  simp only [Unmarshal.run] at h
  cases hp : u.proxy data c with
  | error e => simp [hp] at h
  | ok c' => simp [hp] at h; exact ⟨c', h.symm⟩

def decodeWith (json yaml : Unmarshal W) (isJSON : Bool) : Bytes → Value W → Except GoError (Value W) :=
  if isJSON then json.run else yaml.run

/-- How `NewProxyFromConfigData` ends: with what the creator returns, with its own error, or in a
panic of a type assertion. -/
inductive Outcome (Srv Cli : Type) where
  | created (c : Created Srv Cli)
  | error (err : GoError)
  | panic

section Create
variable (toUpper : String → String) (proxyCreators : List (String × (Context (Value W) → Outcome Srv Cli)))
  (openFile : String → Option GoError)

/-- The part of `NewProxyFromConfigData` after the type assertion: `creators[ToUpper(RunType)]`,
the log file, then the creator. `toUpper` is `strings.ToUpper` and `openFile` gives the error
of `os.OpenFile`. -/
def runCreator (cfg : ProxyConfig) (ctx : Context (Value W)) : Outcome Srv Cli :=
  match proxyCreators.lookup (toUpper cfg.runType) with
  | none => .error (.common ("unknown proxy type: " ++ cfg.runType))
  | some create =>
    if cfg.logFile ≠ "" then
      match openFile cfg.logFile with
      | some err => .error (newErrorBase "failed to open log file" (some err))
      | none => create ctx
    else create ctx

/-- `NewProxyFromConfigData(data, isJSON)`; `id` is the value of `rand.Int()` and `creators` the
registered config creators. -/
def newProxyFromConfigData (json yaml : Unmarshal W)
    (order₁ order₂ : List (String × Value W) → List (String × Value W))
    (creators : List (String × Value W)) (id : W) (data : Bytes) (isJSON : Bool) : Outcome Srv Cli :=
  let ctx := withValue [] "PROXY_ID" (.inr id)
  let r := if isJSON then withJSONConfig ⟨json.run, yaml.run⟩ order₁ order₂ creators ctx data
    else withYAMLConfig ⟨json.run, yaml.run⟩ order₁ order₂ creators ctx data
  match r.2 with
  | some err => .error err
  | none =>
    match (fromContext r.1 "PROXY").bind Sum.getLeft? with
    | none => .panic
    | some cfg => runCreator toUpper proxyCreators openFile cfg r.1

theorem runCreator_unknown (cfg : ProxyConfig) (ctx : Context (Value W))
    (h : proxyCreators.lookup (toUpper cfg.runType) = none) :
    runCreator toUpper proxyCreators openFile cfg ctx =
      .error (.common ("unknown proxy type: " ++ cfg.runType)) := by
  simp [runCreator, h]

end Create

theorem config_ne_id (name : String) : name ++ "_CONFIG" ≠ "PROXY_ID" := fun h => by
  have := congrArg (fun s : String => s.data.getLast?) h
  simp [String.data_append, List.getLast?_append] at this

theorem fromContext_id {V : Type} (id : V) (name : String) :
    fromContext (withValue [] "PROXY_ID" id) name = none := by
  have : (name ++ "_CONFIG" == "PROXY_ID") = false := beq_eq_false_iff_ne.mpr (config_ne_id name)
  simp [fromContext, withValue, value, List.lookup_cons, this]

/-- With the `PROXY` config creator registered, whatever orders `range` takes and whatever the
decoders and `strings.ToUpper` do, `NewProxyFromConfigData` returns the error of a registered
config that does not decode, or selects the creator with the decoded `PROXY` config and a
context in which every module's config is its decoded one. -/
theorem newProxyFromConfigData_cases (toUpper : String → String)
    (proxyCreators : List (String × (Context (Value W) → Outcome Srv Cli)))
    (openFile : String → Option GoError) (json yaml : Unmarshal W)
    {order₁ order₂ : List (String × Value W) → List (String × Value W)} (h₁ : ∀ l, (order₁ l).Perm l)
    (h₂ : ∀ l, (order₂ l).Perm l) {creators : List (String × Value W)}
    (hkeys : (creators.map Prod.fst).Nodup)
    (hproxy : creators.lookup "PROXY_CONFIG" = some (.inl defaultProxyConfig)) (id : W)
    (data : Bytes) (isJSON : Bool) :
    (∃ err, (∃ c ∈ creators, decodeWith json yaml isJSON data c.2 = .error err) ∧
        newProxyFromConfigData toUpper proxyCreators openFile json yaml order₁ order₂ creators id data
          isJSON = .error err) ∨
      ∃ cfg ctx, decodeWith json yaml isJSON data (.inl defaultProxyConfig) = .ok (.inl cfg) ∧
        (∀ name, fromContext ctx name = (creators.lookup (name ++ "_CONFIG")).bind fun d =>
          (decodeWith json yaml isJSON data d).toOption) ∧
        newProxyFromConfigData toUpper proxyCreators openFile json yaml order₁ order₂ creators id data
          isJSON = runCreator toUpper proxyCreators openFile cfg ctx := by
  have hr : (if isJSON then withJSONConfig ⟨json.run, yaml.run⟩ order₁ order₂ creators
        (withValue [] "PROXY_ID" (.inr id)) data
      else withYAMLConfig ⟨json.run, yaml.run⟩ order₁ order₂ creators (withValue [] "PROXY_ID" (.inr id)) data) =
      withParsed (parseWith (decodeWith json yaml isJSON) (order₁ creators) data) order₂
        (withValue [] "PROXY_ID" (.inr id)) := by
    cases isJSON <;> rfl
  obtain ⟨hok, herr, hstore⟩ := withParsed_parseWith_stores (decodeWith json yaml isJSON) h₁ h₂ hkeys
    (withValue [] "PROXY_ID" (.inr id)) data
  unfold newProxyFromConfigData
  simp only [hr]
  cases he : (withParsed (parseWith (decodeWith json yaml isJSON) (order₁ creators) data) order₂
      (withValue [] "PROXY_ID" (.inr id))).2 with
  | some err => exact .inl ⟨err, (herr err he).2, rfl⟩
  | none =>
    have hctx := hstore he
    simp only [fromContext_id, Option.or_none] at hctx
    obtain ⟨v, hv⟩ := hok.mp he _ ((lookup_eq_some_iff_mem hkeys).mp hproxy)
    obtain ⟨cfg, rfl⟩ : ∃ cfg, v = .inl cfg := by
      unfold decodeWith at hv
      split at hv <;> exact Unmarshal.run_inl _ data hv
    refine .inr ⟨cfg, _, hv, hctx, ?_⟩
    have hp : fromContext (withParsed (parseWith (decodeWith json yaml isJSON) (order₁ creators) data)
        order₂ (withValue [] "PROXY_ID" (.inr id))).1 "PROXY" = some (.inl cfg) := by
      rw [hctx "PROXY", show "PROXY" ++ "_CONFIG" = "PROXY_CONFIG" from rfl, hproxy]
      simp [hv, Except.toOption]
    simp only [hp, Option.some_bind, Sum.getLeft?_inl]

/-! ### The creators under src/ -/

/-- `RegisterProxyCreator(Name, …)` of `proxy/server` and of `proxy/client`: each takes the
`client.Config` stored under its own name out of the context (`asClient` is the assertion
`.(*client.Config)` on the other values), then builds its proxy. -/
def srcProxyCreators (names : TunnelNames) (newServer : String → Option Srv → Except GoError Srv)
    (newClient : String → Option Cli → Except GoError Cli)
    (order : Nat → List (String × Nat) → List (String × Nat)) (asClient : W → Option Stacks.Config) :
    List (String × (Context (Value W) → Outcome Srv Cli)) :=
  [("SERVER", fun ctx => match ((fromContext ctx "SERVER").bind Sum.getRight?).bind asClient with
      | none => .panic
      | some cfg => .created (serverProxy names newServer newClient order cfg)),
    ("CLIENT", fun ctx => match ((fromContext ctx "CLIENT").bind Sum.getRight?).bind asClient with
      | none => .panic
      | some cfg => .created (clientProxy names newServer newClient order cfg))]

inductive DemoValue where
  | client (c : Stacks.Config)
  | id (n : Nat)

def demoAsClient : DemoValue → Option Stacks.Config
  | .client c => some c
  | .id _ => none

def demoToUpper (s : String) : String := ⟨s.toList.map Char.toUpper⟩

def demoUnmarshal : Unmarshal DemoValue :=
  ⟨fun data c => .ok { c with runType := goString data }, fun _ w => .ok w⟩

def demoCreators : List (String × Value DemoValue) :=
  registerConfigCreator (registerConfigCreator [] "PROXY" (.inl defaultProxyConfig)) "CLIENT"
    (.inr (.client ⟨false, false, false, false, false⟩))

theorem newProxyFromConfigData_cases_client :
    (∀ l : List (String × Value DemoValue), (id l).Perm l) ∧ (demoCreators.map Prod.fst).Nodup ∧
      demoCreators.lookup "PROXY_CONFIG" = some (.inl defaultProxyConfig) ∧
      newProxyFromConfigData demoToUpper
          (srcProxyCreators demoNames nameStack nameStack (fun _ l => l) demoAsClient)
          (fun _ => none) demoUnmarshal demoUnmarshal id id demoCreators (.id 7) (ascii "client") true =
        .created (clientProxy demoNames nameStack nameStack (fun _ l => l) ⟨false, false, false, false, false⟩) ∧
      ((∃ err, (∃ c ∈ demoCreators, decodeWith demoUnmarshal demoUnmarshal true (ascii "client") c.2 =
            .error err) ∧
          newProxyFromConfigData demoToUpper
            (srcProxyCreators demoNames nameStack nameStack (fun _ l => l) demoAsClient) (fun _ => none)
            demoUnmarshal demoUnmarshal id id demoCreators (.id 7) (ascii "client") true = .error err) ∨
        ∃ cfg ctx, decodeWith demoUnmarshal demoUnmarshal true (ascii "client") (.inl defaultProxyConfig) =
            .ok (.inl cfg) ∧
          (∀ name, fromContext ctx name = (demoCreators.lookup (name ++ "_CONFIG")).bind fun d =>
            (decodeWith demoUnmarshal demoUnmarshal true (ascii "client") d).toOption) ∧
          newProxyFromConfigData demoToUpper
            (srcProxyCreators demoNames nameStack nameStack (fun _ l => l) demoAsClient) (fun _ => none)
            demoUnmarshal demoUnmarshal id id demoCreators (.id 7) (ascii "client") true =
            runCreator demoToUpper
              (srcProxyCreators demoNames nameStack nameStack (fun _ l => l) demoAsClient)
              (fun _ => none) cfg ctx) :=
  ⟨fun l => .refl l, by decide, rfl, rfl,
    newProxyFromConfigData_cases _ _ _ _ _ (fun l => .refl l) (fun l => .refl l) (by decide)
      (show demoCreators.lookup "PROXY_CONFIG" = some (.inl defaultProxyConfig) from rfl) _ _ _⟩

end TrojanGo.NewProxy
