import TrojanGo.Http
import TrojanGo.Header

/-!
# The transport server's connection task

In plaintext mode the task sniffs each TCP connection with `http.ReadRequest` through a 512-byte
rewind connection and sends it to `wsChan` if a request parsed and to `connChan` if not; the
connection sent carries exactly the stream received (`handleConn_content`). `NewServer` listens
where its SIP003 plugin forwards (`newServer_plugin_listen`).
-/

set_option autoImplicit false

namespace TrojanGo.Transport
open TrojanGo.Stream TrojanGo.Rewind TrojanGo.Http TrojanGo.Header Conn

/-- `connChan` and `wsChan` of `transport.Server`. -/
inductive Chan where
  | connChan
  | wsChan
  deriving DecidableEq, Repr

variable {σ : Type}

structure Outcome (σ : Type) where
  ch : Chan
  conn : Handed σ

/-- The task `transport.Server.acceptLoop` starts for one TCP connection. -/
def handleConn [Conn σ] (nextHTTP : Bool) (readRequest : ReadRequest) (tcpConn : σ) : Outcome σ :=
  if nextHTTP then
    let r := readRequest.run (newReader ((newRewindConn tcpConn).setBufferSize 512))
    let rewindConn := r.2.rd.rewind.stopBuffering
    match r.1 with
    | .error _ => ⟨.connChan, .rewound rewindConn⟩
    | .ok _ => ⟨.wsChan, .rewound rewindConn⟩
  else ⟨.connChan, .raw tcpConn⟩

section Task
variable [Conn σ]

/-- Whatever the sniff reads and however the stream is cut, the connection the task sends on
carries exactly the stream it received. -/
theorem handleConn_content (nextHTTP : Bool) (readRequest : ReadRequest) (tcpConn : σ) :
    (handleConn nextHTTP readRequest tcpConn).conn.content = Conn.content tcpConn := by
  dsimp only [handleConn]
  split
  · split <;> simpa [Handed.content] using peek_rewind_bufio readRequest 512 tcpConn
  · rfl

theorem handleConn_ws (nextHTTP : Bool) (readRequest : ReadRequest) (tcpConn : σ) :
    (handleConn nextHTTP readRequest tcpConn).ch = .wsChan ↔ nextHTTP = true ∧
      ∃ req, (readRequest.run (newReader ((newRewindConn tcpConn).setBufferSize 512))).1 = .ok req := by
  dsimp only [handleConn]
  split
  · split <;> simp_all
  · simp_all

end Task

/-! ### Creation -/

/-- `TransportPlugin` of the transport configuration. -/
structure PluginConfig where
  enabled : Bool
  type : String
  command : String
  arg : List String
  env : List String
  option : String

/-- The options `transport.NewServer` reads: `LocalHost`, `LocalPort` and `TransportPlugin`. -/
structure Config where
  localHost : String
  localPort : Nat
  plugin : PluginConfig

structure Cmd where
  command : String
  arg : List String
  env : List String
  deriving DecidableEq, Repr

/-- The environment of a SIP003 (`shadowsocks`) plugin: the plugin's own variables, then where
it listens (the configured address) and where it forwards to (trojan-go's listener). -/
def ssEnv (cfg : Config) (trojanHost : String) (trojanPort : Nat) : List String :=
  cfg.plugin.env ++ ["SS_REMOTE_HOST=" ++ cfg.localHost, "SS_REMOTE_PORT=" ++ toString cfg.localPort,
    "SS_LOCAL_HOST=" ++ trojanHost, "SS_LOCAL_PORT=" ++ toString trojanPort,
    "SS_PLUGIN_OPTIONS=" ++ cfg.plugin.option]

/-- The plugin switch of `transport.NewServer`: the address to listen on and the plugin process
it starts; `pickPort` is what `common.PickPort` returns. -/
def startPlugin (cfg : Config) (pickPort : Nat) : Except GoError (HostPort × Option Cmd) :=
  if cfg.plugin.enabled then
    if cfg.plugin.type = "shadowsocks" then
      let trojanHost := "127.0.0.1"
      .ok (⟨trojanHost, pickPort⟩, some ⟨cfg.plugin.command, cfg.plugin.arg, ssEnv cfg trojanHost pickPort⟩)
    else if cfg.plugin.type = "other" then
      .ok (⟨cfg.localHost, cfg.localPort⟩, some ⟨cfg.plugin.command, cfg.plugin.arg, cfg.plugin.env⟩)
    else if cfg.plugin.type = "plaintext" then .ok (⟨cfg.localHost, cfg.localPort⟩, none)
    else .error (.common ("invalid plugin type: " ++ cfg.plugin.type))
  else .ok (⟨cfg.localHost, cfg.localPort⟩, none)

/-- `transport.NewServer`: the plugin switch, then `net.Listen` on the address it chose, whose
error (`listen`) is returned as it is. -/
def newServer (cfg : Config) (pickPort : Nat) (listen : HostPort → Option GoError) :
    Except GoError (HostPort × Option Cmd) :=
  match startPlugin cfg pickPort with
  | .error err => .error err
  | .ok (addr, cmd) =>
    match listen addr with
    | some err => .error err
    | none => .ok (addr, cmd)

theorem startPlugin_error (cfg : Config) (pickPort : Nat) (err : GoError) :
    startPlugin cfg pickPort = .error err ↔ cfg.plugin.enabled = true ∧
      cfg.plugin.type ∉ ["shadowsocks", "other", "plaintext"] ∧
      err = .common ("invalid plugin type: " ++ cfg.plugin.type) := by
  unfold startPlugin
  split_ifs with h1 h2 h3 h4 <;> simp [*, @eq_comm _ err]

theorem newServer_error (cfg : Config) (pickPort : Nat) (listen : HostPort → Option GoError)
    (err : GoError) : newServer cfg pickPort listen = .error err ↔
      startPlugin cfg pickPort = .error err ∨
        ∃ addr cmd, startPlugin cfg pickPort = .ok (addr, cmd) ∧ listen addr = some err := by
  unfold newServer
  split <;> rename_i hp
  · simp [hp]
  · split <;> simp_all

/-- A server `NewServer` creates listens where its plugin forwards: with a `shadowsocks` plugin
on `127.0.0.1` at the picked port, which the plugin's `SS_LOCAL_*` variables name, the plugin
itself taking the configured address (`SS_REMOTE_*`); with any other setting on the configured
address, with a plugin process only for the type `other`. -/
theorem newServer_plugin_listen {cfg : Config} {pickPort : Nat} {listen : HostPort → Option GoError}
    {addr : HostPort} {cmd : Option Cmd} (h : newServer cfg pickPort listen = .ok (addr, cmd)) :
    listen addr = none ∧
      if cfg.plugin.enabled ∧ cfg.plugin.type = "shadowsocks" then
        addr = ⟨"127.0.0.1", pickPort⟩ ∧ ∃ c, cmd = some c ∧
          ("SS_LOCAL_HOST=" ++ addr.host) ∈ c.env ∧ ("SS_LOCAL_PORT=" ++ toString addr.port) ∈ c.env ∧
          ("SS_REMOTE_HOST=" ++ cfg.localHost) ∈ c.env ∧
          ("SS_REMOTE_PORT=" ++ toString cfg.localPort) ∈ c.env
      else addr = ⟨cfg.localHost, cfg.localPort⟩ ∧
        (cmd.isSome ↔ cfg.plugin.enabled ∧ cfg.plugin.type = "other") := by
  unfold newServer at h
  split at h <;> rename_i hp
  · cases h
  · split at h
    · cases h
    · rename_i hl
      cases h
      refine ⟨hl, ?_⟩
      unfold startPlugin at hp
      split_ifs at hp with h1 h2 h3 h4 <;> cases hp <;> simp_all [ssEnv]

end TrojanGo.Transport
