import Mathlib.Data.List.Perm.Basic
import TrojanGo.Stream

/-!
# Starting the process: option handlers

`main` pops the registered option handler of greatest priority, calls its `Handle`, and stops at
the first that does not return an error. It handles them by descending priority, each once
(`main_runs`), and with distinct priorities its outcome does not depend on the map's order
(`main_eq_firstHandled`).
-/

set_option autoImplicit false

namespace TrojanGo.Startup
open TrojanGo.Stream

inductive Handled where
  | ok
  | error (err : GoError)
  | fatal (msg : String)
  deriving DecidableEq, Repr

/-- An `option.Handler`: its `Name()`, its `Priority()` and what its `Handle()` does. The flags
are parsed before the first handler runs and a handler that returns an error changes nothing,
so what `Handle()` does is fixed when the handler is registered. -/
structure Handler where
  name : String
  priority : Int
  handle : Handled
  deriving DecidableEq, Repr

/-- How `main` ends: it returns after a `Handle` returned `nil`, or `log.Fatal` ends the
process. -/
inductive Exit where
  | returned
  | fatal (msg : String)
  deriving DecidableEq, Repr

/-! ### The option package and `main` -/

/-- `RegisterHandler(h)`: `handlers[h.Name()] = h`. -/
def registerHandler (handlers : List Handler) (h : Handler) : List Handler :=
  handlers.filter (fun h' => h'.name != h.name) ++ [h]

/-- The body of `PopOptionHandler`'s loop: take `h` if no handler is kept yet or `h`'s priority
is greater. -/
def keepMax (maxHandler : Option Handler) (h : Handler) : Option Handler :=
  match maxHandler with
  | none => some h
  | some m => if m.priority < h.priority then some h else some m

/-- `PopOptionHandler()`, with `range` visiting the map's handlers in the order `visit`. -/
def popOptionHandler (visit handlers : List Handler) : Except GoError (Handler × List Handler) :=
  match visit.foldl keepMax none with
  | none => .error (.common "no option left")
  | some h => .ok (h, handlers.filter fun h' => h'.name != h.name)

/-- `main`'s loop from its `k`-th pass: the handlers it calls and how it ends. `order k` is the
order `range` takes in the `k`-th `PopOptionHandler`. -/
def mainLoop (order : Nat → List Handler → List Handler) : (fuel k : Nat) → List Handler →
    List Handler × Exit
  | 0, _, _ => ([], .fatal "invalid options")
  | fuel + 1, k, handlers =>
    match popOptionHandler (order k handlers) handlers with
    | .error _ => ([], .fatal "invalid options")
    | .ok (h, rest) =>
      match h.handle with
      | .ok => ([h], .returned)
      | .error _ => let r := mainLoop order fuel (k + 1) rest; (h :: r.1, r.2)
      | .fatal msg => ([h], .fatal msg)

/-- `main()`: each pass pops a handler, so one pass more than there are handlers is enough. -/
def main (order : Nat → List Handler → List Handler) (handlers : List Handler) :
    List Handler × Exit :=
  mainLoop order (handlers.length + 1) 0 handlers

/-! ### The handlers -/

/-- `ClientConfig` and `ServerConfig` of `easy`; the server's has the `ssl` part
`{SNI: "", Cert, Key}`. -/
structure EasyConfig where
  runType : String
  localAddr : String
  localPort : Int
  remoteAddr : String
  remotePort : Int
  password : List String
  tls : Option (String × String × String)
  deriving DecidableEq, Repr

/-- The calls the handlers make into libraries and into the rest of the process:
`net.SplitHostPort`, `strconv.Atoi`, `json.Marshal`, `ioutil.ReadFile`, reading all of the
standard input, and `NewProxyFromConfigData(data, isJSON)` followed by `Run()` on the proxy,
which gives the error of either or `none` when `Run` returns `nil`. -/
structure Env where
  splitHostPort : String → Except GoError (String × String)
  atoi : String → Except GoError Int
  marshal : EasyConfig → Bytes
  readFile : String → Except GoError Bytes
  readStdin : Except GoError Bytes
  start : Bytes → Bool → Option GoError

structure EasyFlags where
  server : Bool
  client : Bool
  password : String
  «local» : String
  remote : String
  cert : String
  key : String
  deriving DecidableEq, Repr

variable (env : Env)

/-- The part of `easy.Handle()` its client and server branches share: split both addresses,
read both ports, marshal the configuration and run a proxy with it. -/
def easyStart (runType localAddr remoteAddr password : String)
    (tls : Option (String × String × String)) : Handled :=
  match env.splitHostPort localAddr with
  | .error err => .fatal (newErrorBase ("invalid local addr format:" ++ localAddr) (some err)).message
  | .ok (localHost, localPortStr) =>
    match env.splitHostPort remoteAddr with
    | .error err =>
      .fatal (newErrorBase ("invalid remote addr format:" ++ remoteAddr) (some err)).message
    | .ok (remoteHost, remotePortStr) =>
      match env.atoi localPortStr with
      | .error err => .fatal err.message
      | .ok localPort =>
        match env.atoi remotePortStr with
        | .error err => .fatal err.message
        | .ok remotePort =>
          match env.start (env.marshal ⟨runType, localHost, localPort, remoteHost, remotePort,
              [password], tls⟩) true with
          | some err => .fatal err.message
          | none => .ok

def easyHandle (o : EasyFlags) : Handled :=
  if !o.server && !o.client then .error (.common "empty")
  else if o.password = "" then .fatal "empty password is not allowed"
  else if o.client then
    easyStart env "client" (if o.«local» = "" then "127.0.0.1:1080" else o.«local») o.remote
      o.password none
  else
    easyStart env "server" (if o.«local» = "" then "0.0.0.0:443" else o.«local»)
      (if o.remote = "" then "127.0.0.1:80" else o.remote) o.password (some ("", o.cert, o.key))

/-- `versionOption.Handle()`: print the version and return `nil` when `-version` is set. -/
def versionHandle (flag : Bool) : Handled :=
  if flag then .ok else .error (.common "not set")

/-- `StdinOption.isFormatJson()`; `strings.ToLower` is taken on ASCII letters. -/
def isFormatJson (format : Option String) : Except GoError Bool :=
  match format with
  | none => .error (.common "format specifier is nil")
  | some format =>
    if format = "disabled" then .error (.common "reading from stdin is disabled")
    else .ok (format.toLower == "json")

/-- `StdinOption.Handle()`: after the format check, read the standard input (`log.Fatalf` on an
error) and run a proxy with it (`log.Fatal` on an error). The hint it prints is left out. -/
def stdinHandle (format : Option String) : Handled :=
  match isFormatJson format with
  | .error e => .error e
  | .ok isJSON =>
    match env.readStdin with
    | .error e => .fatal ("Failed to read from stdin: " ++ e.message)
    | .ok data =>
      match env.start data isJSON with
      | some err => .fatal err.message
      | none => .ok

/-- `detectAndReadConfig(file)`: JSON for the suffix `.json`, YAML for `.yaml` or `.yml`, and
`log.Fatalf` (the outer error) for any other; then the file's contents or the read error. -/
def detectAndReadConfig (file : String) : Except String (Except GoError (Bytes × Bool)) :=
  if file.endsWith ".json" then .ok ((env.readFile file).map fun data => (data, true))
  else if file.endsWith ".yaml" || file.endsWith ".yml" then
    .ok ((env.readFile file).map fun data => (data, false))
  else .error ("unsupported config format: " ++ file ++ ". use .yaml or .json instead.")

def defaultConfigPath : List String := ["config.json", "config.yml", "config.yaml"]

/-- The loop over the default paths: the first file read, if any; a read error moves on to the
next path. -/
def readDefaultConfig : List String → Except String (Option (Bytes × Bool))
  | [] => .ok none
  | file :: files =>
    match detectAndReadConfig env file with
    | .error msg => .error msg
    | .ok (.error _) => readDefaultConfig files
    | .ok (.ok d) => .ok (some d)

/-- The `switch *o.path` of `Option.Handle()`: the configuration from the `-config` file
(`log.Fatal` on a read error), or with an empty path from the first default path that reads. -/
def readConfig (path : String) : Except String (Option (Bytes × Bool)) :=
  if path = "" then readDefaultConfig env defaultConfigPath
  else match detectAndReadConfig env path with
    | .error msg => .error msg
    | .ok (.error err) => .error err.message
    | .ok (.ok d) => .ok (some d)

/-- `Option.Handle()`: run a proxy with the configuration read, then `log.Fatal`. -/
def optionHandle (path : String) : Handled :=
  match readConfig env path with
  | .error msg => .fatal msg
  | .ok none => .fatal "no valid config"
  | .ok (some (data, isJSON)) =>
    match env.start data isJSON with
    | some err => .fatal err.message
    | none => .fatal "no valid config"

structure Flags where
  easy : EasyFlags
  version : Bool
  config : String
  stdinFormat : String
  deriving DecidableEq, Repr

/-- The handlers of `easy`, `version` and `proxy`, each with its `Name()` and `Priority()`. -/
def easyOption (flags : Flags) : Handler := ⟨"easy", 50, easyHandle env flags.easy⟩
def versionOption (flags : Flags) : Handler := ⟨"version", 10, versionHandle flags.version⟩
def stdinOption (flags : Flags) : Handler :=
  ⟨"PROXY_STDIN", 0, stdinHandle env (some flags.stdinFormat)⟩
def configOption (flags : Flags) : Handler := ⟨"PROXY", -1, optionHandle env flags.config⟩

/-- The map after the packages' `init` functions have registered their handlers. -/
def registered (flags : Flags) : List Handler :=
  [configOption env flags, stdinOption env flags, easyOption env flags,
    versionOption flags].foldl registerHandler []

/-! ### `PopOptionHandler` -/

theorem foldl_keepMax_eq_none {l : List Handler} {init : Option Handler} :
    l.foldl keepMax init = none ↔ init = none ∧ l = [] := by
  induction l generalizing init with
  | nil => simp
  | cons h l ih =>
    rw [List.foldl_cons, ih]
    cases init with
    | none => simp [keepMax]
    | some m => simp only [keepMax]; split <;> simp

theorem foldl_keepMax_spec {l : List Handler} {init : Option Handler} {m : Handler}
    (hm : l.foldl keepMax init = some m) :
    (init = some m ∨ m ∈ l) ∧ (∀ i ∈ init, i.priority ≤ m.priority) ∧
      ∀ h ∈ l, h.priority ≤ m.priority := by
  induction l generalizing init with
  | nil =>
    cases hm
    refine ⟨.inl rfl, fun i hi => ?_, by simp⟩
    rw [Option.mem_def, Option.some.injEq] at hi
    exact hi ▸ Int.le_refl i.priority
  | cons h l ih =>
    obtain ⟨hmem, hinit, hl⟩ := ih hm
    refine ⟨?_, ?_, List.forall_mem_cons.mpr ⟨?_, hl⟩⟩ <;> cases init with
    | none =>
      simp only [keepMax, Option.some.injEq] at hmem
      first
      | exact .inr (List.mem_cons.mpr (hmem.imp Eq.symm id))
      | exact fun i hi => by cases hi
      | exact hinit h rfl
    | some i =>
      by_cases hlt : i.priority < h.priority <;>
        simp only [keepMax, hlt, if_true, if_false, Option.some.injEq, Option.mem_def,
          forall_eq'] at hmem hinit ⊢ <;>
        first
        | exact .inr (List.mem_cons.mpr (hmem.imp Eq.symm id))
        | exact hmem.imp id (List.mem_cons_of_mem h)
        | exact hinit
        | omega

theorem popOptionHandler_cases {visit handlers : List Handler} (hv : visit.Perm handlers) :
    (handlers = [] ∧ popOptionHandler visit handlers = .error (.common "no option left")) ∨
      ∃ h ∈ handlers, (∀ h' ∈ handlers, h'.priority ≤ h.priority) ∧
        popOptionHandler visit handlers = .ok (h, handlers.filter fun h' => h'.name != h.name) := by
  unfold popOptionHandler
  cases hf : visit.foldl keepMax none with
  | none =>
    obtain ⟨-, rfl⟩ := foldl_keepMax_eq_none.mp hf
    exact .inl ⟨List.Perm.nil_eq hv |>.symm, rfl⟩
  | some m =>
    obtain ⟨hmem, -, hmax⟩ := foldl_keepMax_spec hf
    exact .inr ⟨m, hv.mem_iff.mp (hmem.resolve_left (by simp)),
      fun h' hh' => hmax h' (hv.mem_iff.mpr hh'), rfl⟩

def tiedHandlers : List Handler :=
  [⟨"a", 1, .error (.common "a")⟩, ⟨"b", 3, .ok⟩, ⟨"c", 3, .fatal "c"⟩]

theorem perm_cons_filter_name {handlers : List Handler} (hn : (handlers.map Handler.name).Nodup)
    {h : Handler} (hh : h ∈ handlers) :
    List.Perm (h :: handlers.filter fun h' => h'.name != h.name) handlers := by
  induction handlers with
  | nil => cases hh
  | cons x xs ih =>
    rw [List.map_cons, List.nodup_cons] at hn
    rcases List.mem_cons.mp hh with rfl | hh
    · rw [List.filter_cons_of_neg (by simp), List.filter_eq_self.mpr fun y hy => bne_iff_ne.mpr
        fun e => hn.1 (by rw [← e]; exact List.mem_map_of_mem Handler.name hy)]
    · have hne : x.name ≠ h.name := fun e => hn.1 (e ▸ List.mem_map_of_mem _ hh)
      rw [List.filter_cons_of_pos (by simpa using hne)]
      exact (List.Perm.swap x h _).trans ((ih hn.2 hh).cons x)

/-! ### `main` -/

/-- What `main` may do with a map of handlers, in any order `range` takes: call the `Handle` of a
handler of greatest priority, and go on with the others after an error; with no handler left,
`log.Fatal("invalid options")`. -/
inductive Runs : List Handler → List Handler → Exit → Prop
  | empty : Runs [] [] (.fatal "invalid options")
  | returned {hs rest : List Handler} {h : Handler} (hperm : List.Perm (h :: rest) hs)
      (hmax : ∀ h' ∈ rest, h'.priority ≤ h.priority) (hok : h.handle = .ok) :
      Runs hs [h] .returned
  | fatal {hs rest : List Handler} {h : Handler} {msg : String} (hperm : List.Perm (h :: rest) hs)
      (hmax : ∀ h' ∈ rest, h'.priority ≤ h.priority) (hf : h.handle = .fatal msg) :
      Runs hs [h] (.fatal msg)
  | next {hs rest called : List Handler} {h : Handler} {err : GoError} {exit : Exit}
      (hperm : List.Perm (h :: rest) hs) (hmax : ∀ h' ∈ rest, h'.priority ≤ h.priority)
      (he : h.handle = .error err) (hr : Runs rest called exit) : Runs hs (h :: called) exit

section Main
variable {order : Nat → List Handler → List Handler} (horder : ∀ k l, List.Perm (order k l) l)
include horder

theorem mainLoop_runs : ∀ fuel k handlers, handlers.length < fuel →
    (handlers.map Handler.name).Nodup →
    Runs handlers (mainLoop order fuel k handlers).1 (mainLoop order fuel k handlers).2
  | 0, _, _, hf, _ => absurd hf (Nat.not_lt_zero _)
  | fuel + 1, k, handlers, hf, hn => by
    rcases popOptionHandler_cases (horder k handlers) with ⟨rfl, hpop⟩ | ⟨h, hh, hmax, hpop⟩
    · simp only [mainLoop, hpop]
      exact .empty
    · have hperm := perm_cons_filter_name hn hh
      have hmax' := fun h' (hh' : h' ∈ handlers.filter fun h' => h'.name != h.name) =>
        hmax h' (List.mem_of_mem_filter hh')
      cases he : h.handle with
      | ok => simp only [mainLoop, hpop, he]; exact .returned hperm hmax' he
      | fatal msg => simp only [mainLoop, hpop, he]; exact .fatal hperm hmax' he
      | error err =>
        simp only [mainLoop, hpop, he]
        refine .next hperm hmax' he (mainLoop_runs fuel (k + 1) _ ?_ ?_)
        · have := hperm.length_eq
          simp only [List.length_cons] at this
          omega
        · exact hn.sublist ((List.filter_sublist _).map _)

/-- Whatever order `range` takes in each `PopOptionHandler`, `main` does what `Runs` allows: it
calls the `Handle` of a handler of greatest priority among those left, each handler at most once,
and stops at the first that does not return an error. -/
theorem main_runs {handlers : List Handler} (hn : (handlers.map Handler.name).Nodup) :
    Runs handlers (main order handlers).1 (main order handlers).2 :=
  mainLoop_runs horder _ 0 handlers (Nat.lt_succ_self _) hn

end Main

theorem main_runs_tied :
    main (fun _ l => l) tiedHandlers = ([⟨"b", 3, .ok⟩], .returned) ∧
      main (fun _ l => l.reverse) tiedHandlers = ([⟨"c", 3, .fatal "c"⟩], .fatal "c") ∧
      Runs tiedHandlers (main (fun _ l => l) tiedHandlers).1 (main (fun _ l => l) tiedHandlers).2 :=
  ⟨rfl, rfl, main_runs (fun _ _ => .refl _) (by decide)⟩

def firstHandled : List Handler → List Handler × Exit
  | [] => ([], .fatal "invalid options")
  | h :: hs =>
    match h.handle with
    | .ok => ([h], .returned)
    | .error _ => let r := firstHandled hs; (h :: r.1, r.2)
    | .fatal msg => ([h], .fatal msg)

theorem eq_head_of_max {h a : Handler} {rest l : List Handler}
    (hperm : List.Perm (h :: rest) (a :: l)) (hmax : ∀ h' ∈ rest, h'.priority ≤ h.priority)
    (hl : ∀ b ∈ l, b.priority < a.priority) : h = a ∧ List.Perm rest l := by
  have hha : h = a := by
    by_contra hne
    have ha : a ∈ rest := (List.mem_cons.mp (hperm.mem_iff.mpr (List.mem_cons_self a l))).resolve_left
      (Ne.symm hne)
    have hh : h ∈ l := (List.mem_cons.mp (hperm.mem_iff.mp (List.mem_cons_self h rest))).resolve_left
      hne
    have := hmax a ha
    have := hl h hh
    omega
  subst hha
  exact ⟨rfl, hperm.cons_inv⟩

theorem Runs.eq_firstHandled {hs called : List Handler} {exit : Exit}
    (hr : Runs hs called exit) :
    ∀ {l : List Handler}, l.Pairwise (fun a b => b.priority < a.priority) → hs.Perm l →
      (called, exit) = firstHandled l := by
  induction hr with
  | empty => intro l _ hp; obtain rfl := List.Perm.nil_eq hp; rfl
  | returned hperm hmax hok =>
    intro l hl hp
    cases l with
    | nil => exact absurd (hperm.trans hp).length_eq (by simp)
    | cons a l =>
      obtain ⟨rfl, -⟩ := eq_head_of_max (hperm.trans hp) hmax fun b hb => List.rel_of_pairwise_cons hl hb
      simp [firstHandled, hok]
  | fatal hperm hmax hf =>
    intro l hl hp
    cases l with
    | nil => exact absurd (hperm.trans hp).length_eq (by simp)
    | cons a l =>
      obtain ⟨rfl, -⟩ := eq_head_of_max (hperm.trans hp) hmax fun b hb => List.rel_of_pairwise_cons hl hb
      simp [firstHandled, hf]
  | next hperm hmax he _ ih =>
    intro l hl hp
    cases l with
    | nil => exact absurd (hperm.trans hp).length_eq (by simp)
    | cons a l =>
      obtain ⟨rfl, hrest⟩ := eq_head_of_max (hperm.trans hp) hmax fun b hb => List.rel_of_pairwise_cons hl hb
      have := ih (List.Pairwise.of_cons hl) hrest
      simp only [firstHandled, he]
      rw [← this]

/-- When the priorities differ, `main` is one chain whatever order `range` takes: the
handlers by decreasing priority, until one does not return an error. -/
theorem main_eq_firstHandled {order : Nat → List Handler → List Handler}
    (horder : ∀ k l, List.Perm (order k l) l) {handlers l : List Handler}
    (hn : (handlers.map Handler.name).Nodup) (hl : l.Pairwise fun a b => b.priority < a.priority)
    (hp : handlers.Perm l) : main order handlers = firstHandled l :=
  (mainLoop_runs horder _ 0 handlers (Nat.lt_succ_self _) hn).eq_firstHandled hl hp

theorem main_eq_firstHandled_two :
    main (fun _ l => l.reverse) [⟨"x", 0, .ok⟩, ⟨"y", 5, .error (.common "y")⟩] =
        ([⟨"y", 5, .error (.common "y")⟩, ⟨"x", 0, .ok⟩], .returned) ∧
      main (fun _ l => l.reverse) [⟨"x", 0, .ok⟩, ⟨"y", 5, .error (.common "y")⟩] =
        firstHandled [⟨"y", 5, .error (.common "y")⟩, ⟨"x", 0, .ok⟩] :=
  ⟨rfl, main_eq_firstHandled (fun _ _ => List.reverse_perm _) (by decide) (by decide)
    (List.Perm.swap _ _ [])⟩

/-! ### The handlers under src/ -/

theorem registered_nodup (flags : Flags) : ((registered env flags).map Handler.name).Nodup :=
  show ["PROXY", "PROXY_STDIN", "easy", "version"].Nodup by decide

theorem registered_pairwise (flags : Flags) :
    [easyOption env flags, versionOption flags, stdinOption env flags, configOption env flags].Pairwise
      fun a b => b.priority < a.priority := by
  simp [easyOption, versionOption, stdinOption, configOption]

theorem registered_perm (flags : Flags) :
    (registered env flags).Perm
      [easyOption env flags, versionOption flags, stdinOption env flags, configOption env flags] :=
  (@List.perm_append_comm _ [configOption env flags, stdinOption env flags]
    [easyOption env flags, versionOption flags]).trans (((List.Perm.swap _ _ []).cons _).cons _)

theorem main_registered {order : Nat → List Handler → List Handler}
    (horder : ∀ k l, List.Perm (order k l) l) (flags : Flags) :
    main order (registered env flags) = firstHandled [easyOption env flags, versionOption flags,
      stdinOption env flags, configOption env flags] :=
  (mainLoop_runs horder _ 0 _ (Nat.lt_succ_self _) (registered_nodup env flags)).eq_firstHandled
    (registered_pairwise env flags) (registered_perm env flags)

theorem optionHandle_fatal (path : String) : ∃ msg, optionHandle env path = .fatal msg := by
  unfold optionHandle
  split
  · exact ⟨_, rfl⟩
  · exact ⟨_, rfl⟩
  · split <;> exact ⟨_, rfl⟩

theorem main_config_fatal {order : Nat → List Handler → List Handler}
    (horder : ∀ k l, List.Perm (order k l) l) (flags : Flags) (hserver : flags.easy.server = false)
    (hclient : flags.easy.client = false) (hversion : flags.version = false)
    (hstdin : flags.stdinFormat = "disabled") :
    ∃ msg, main order (registered env flags) = ([easyOption env flags, versionOption flags,
        stdinOption env flags, configOption env flags], .fatal msg) ∧
      ∀ data isJSON, readConfig env flags.config = .ok (some (data, isJSON)) →
        env.start data isJSON = none → msg = "no valid config" := by
  obtain ⟨msg, hmsg⟩ := optionHandle_fatal env flags.config
  refine ⟨msg, ?_, fun data isJSON hr hs => ?_⟩
  · refine (main_registered env horder flags).trans ?_
    simp [firstHandled, easyOption, easyHandle, hserver, hclient,
      versionOption, versionHandle, hversion, stdinOption, stdinHandle, isFormatJson, hstdin,
      configOption, hmsg]
  · simpa [optionHandle, hr, hs] using hmsg.symm

end TrojanGo.Startup
