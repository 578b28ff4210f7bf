import TrojanGo.Pipeline
import TrojanGo.Stream

/-!
# The protocol stacks of the client and the server

`CreateClientStack` and `CreateServerStack` build the tunnels of a list each over the one before;
the `SERVER` proxy builds its servers as a tree of `BuildNext` calls instead. The two levels
agree: every node of every heap that `BuildNext` calls build holds the server `CreateServerStack`
builds along its path from the root (`buildNext_server_stack`).
-/

set_option autoImplicit false

namespace TrojanGo.Stacks
open TrojanGo.Pipeline TrojanGo.Stream Relation

/-- The `Name` constants of the tunnel packages the proxies stack. The packages are not under
src/ (`tls/server.go` compares overlay names with `"WEBSOCKET"` and `"HTTP"`); `tunnel` keys the
registered tunnels by name in one map, so the names differ. -/
structure TunnelNames where
  transport : String
  tls : String
  websocket : String
  shadowsocks : String
  trojan : String
  mux : String
  simplesocks : String
  router : String
  freedom : String
  adapter : String
  http : String
  socks : String
  nodup : [transport, tls, websocket, shadowsocks, trojan, mux, simplesocks, router, freedom,
    adapter, http, socks].Nodup

theorem TunnelNames.siblings_ne (names : TunnelNames) :
    names.websocket ≠ names.trojan ∧ names.websocket ≠ names.shadowsocks ∧
      names.socks ≠ names.http := by
  have h := names.nodup
  simp only [List.nodup_cons, List.mem_cons, List.not_mem_nil, not_or, or_false] at h
  exact ⟨h.2.2.1.2.1, h.2.2.1.1, fun e => h.2.2.2.2.2.2.2.2.2.2.1 e.symm⟩

/-- `client.Config`: the `Enabled` switch of each of its five parts. The `SERVER` proxy reads the
same type. -/
structure Config where
  mux : Bool
  websocket : Bool
  router : Bool
  shadowsocks : Bool
  transportPlugin : Bool
  deriving DecidableEq, Repr

/-- How a proxy creator ends: with the proxy's sources and sink, with the error it returns, or in
`log.Fatal`. -/
inductive Created (Srv Cli : Type) where
  | proxy (sources : List Srv) (sink : Option Cli)
  | error (err : GoError)
  | fatal

variable {Srv Cli : Type} (names : TunnelNames)

/-! ### The code -/

/-- `GenerateClientTree(transportPlugin, muxEnabled, wsEnabled, ssEnabled, routerEnabled)`. -/
def generateClientTree (transportPlugin muxEnabled wsEnabled ssEnabled routerEnabled : Bool) :
    List String :=
  let clientStack := [names.transport]
  let clientStack := if !transportPlugin then clientStack ++ [names.tls] else clientStack
  let clientStack := if wsEnabled then clientStack ++ [names.websocket] else clientStack
  let clientStack := if ssEnabled then clientStack ++ [names.shadowsocks] else clientStack
  let clientStack := clientStack ++ [names.trojan]
  let clientStack := if muxEnabled then clientStack ++ [names.mux, names.simplesocks] else clientStack
  if routerEnabled then clientStack ++ [names.router] else clientStack

/-- `CreateClientStack(ctx, clientStack)`: each name's client over the one built before it, `nil`
at first; `newClient name c` is `tunnel.GetTunnel(name)` then `t.NewClient(ctx, c)`, and the first
error is returned. -/
def createClientStack (newClient : String → Option Cli → Except GoError Cli)
    (clientStack : List String) : Except GoError (Option Cli) :=
  clientStack.foldlM (fun client name => some <$> newClient name client) none

/-- `CreateServerStack(ctx, serverStack)`, the same for servers. -/
def createServerStack (newServer : String → Option Srv → Except GoError Srv)
    (serverStack : List String) : Except GoError (Option Srv) :=
  serverStack.foldlM (fun server name => some <$> newServer name server) none

section Tree
variable (newServer : String → Srv → Option Srv)

/-- `n.BuildNext(a₁).BuildNext(a₂)…` along the names. -/
def buildChain (h : List (Node Srv)) (n : Nat) : List String → Option (List (Node Srv) × Nat)
  | [] => some (h, n)
  | a :: as => (buildNext newServer h n a).bind fun r => buildChain r.1 r.2 as

/-- `n.BuildNext(a₁)…BuildNext(aₖ).IsEndpoint = true`. -/
def markEndpoint (h : List (Node Srv)) (n : Nat) (as : List String) :
    Option (List (Node Srv)) :=
  (buildChain newServer h n as).map fun r => setEndpoint r.1 r.2

/-- The tree of `proxy/server/server.go` on the heap `h` whose first cell is the transport node:
the heap it leaves and its `root`, which is the `TLS` node unless the transport plugin is on.
`none` is a `log.Fatal` in a `BuildNext`. -/
def serverTree (transportPlugin shadowsocks : Bool) (h : List (Node Srv)) :
    Option (List (Node Srv) × Nat) := do
  let root ← buildChain newServer h 0 (if !transportPlugin then [names.tls] else [])
  let trojanSubTree ←
    buildChain newServer root.1 root.2 (if shadowsocks then [names.shadowsocks] else [])
  let h ← markEndpoint newServer trojanSubTree.1 trojanSubTree.2
    [names.trojan, names.mux, names.simplesocks]
  let h ← markEndpoint newServer h trojanSubTree.2 [names.trojan]
  let wsSubTree ← buildChain newServer h root.2
    (names.websocket :: if shadowsocks then [names.shadowsocks] else [])
  let h ← markEndpoint newServer wsSubTree.1 wsSubTree.2
    [names.trojan, names.mux, names.simplesocks]
  let h ← markEndpoint newServer h wsSubTree.2 [names.trojan]
  pure (h, root.2)

/-- The tree of `proxy/client` on the heap whose first cell is the adapter node: the endpoints
`HTTP` and `SOCKS` under it. -/
def clientTree (h : List (Node Srv)) : Option (List (Node Srv)) := do
  let h ← markEndpoint newServer h 0 [names.http]
  markEndpoint newServer h 0 [names.socks]

end Tree

/-- The `SERVER` proxy creator: the transport server over `nil`, the tree over it,
`FindAllEndpoints(root)` given as much depth as the heap has cells, and the client stack
`FREEDOM`, with `ROUTER` over it when enabled. -/
def serverProxy (newServer : String → Option Srv → Except GoError Srv)
    (newClient : String → Option Cli → Except GoError Cli)
    (order : Nat → List (String × Nat) → List (String × Nat)) (cfg : Config) : Created Srv Cli :=
  match newServer names.transport none with
  | .error err => .error err
  | .ok transportServer =>
    let clientStack := if cfg.router then [names.freedom, names.router] else [names.freedom]
    match serverTree names (fun name s => (newServer name (some s)).toOption) cfg.transportPlugin
        cfg.shadowsocks [⟨names.transport, [], false, transportServer⟩] with
    | none => .fatal
    | some (h, root) =>
      match findAllEndpoints order h h.length root, createClientStack newClient clientStack with
      | some serverList, .ok clientList => .proxy serverList clientList
      | _, .error err => .error err
      | none, .ok _ => .fatal

/-- The `CLIENT` proxy creator: the adapter server over `nil`, the endpoints `HTTP` and `SOCKS`
under it, the client stack `GenerateClientTree` lists, and `FindAllEndpoints(root)`. -/
def clientProxy (newServer : String → Option Srv → Except GoError Srv)
    (newClient : String → Option Cli → Except GoError Cli)
    (order : Nat → List (String × Nat) → List (String × Nat)) (cfg : Config) : Created Srv Cli :=
  match newServer names.adapter none with
  | .error err => .error err
  | .ok adapterServer =>
    match clientTree names (fun name s => (newServer name (some s)).toOption)
        [⟨names.adapter, [], false, adapterServer⟩] with
    | none => .fatal
    | some h =>
      match createClientStack newClient (generateClientTree names cfg.transportPlugin cfg.mux
          cfg.websocket cfg.shadowsocks cfg.router) with
      | .error err => .error err
      | .ok c =>
        match findAllEndpoints order h h.length 0 with
        | some s => .proxy s c
        | none => .fatal

theorem createServerStack_ok (mk : String → Option Srv → Srv) (stack : List String) :
    createServerStack (fun a u => .ok (mk a u)) stack =
      .ok (stack.foldl (fun u a => some (mk a u)) none) := by
  suffices ∀ u, stack.foldlM (fun server name => some <$> (Except.ok (mk name server) :
      Except GoError Srv)) u = .ok (stack.foldl (fun u a => some (mk a u)) u) from this none
  induction stack with
  | nil => intro u; rfl
  | cons a stack ih => intro u; exact ih _

theorem createClientStack_ok (mk : String → Option Cli → Cli) (stack : List String) :
    createClientStack (fun a c => .ok (mk a c)) stack =
      .ok (stack.foldl (fun c a => some (mk a c)) none) := by
  suffices ∀ c, stack.foldlM (fun client name => some <$> (Except.ok (mk name client) :
      Except GoError Cli)) c = .ok (stack.foldl (fun c a => some (mk a c)) c) from this none
  induction stack with
  | nil => intro c; rfl
  | cons a stack ih => intro c; exact ih _

/-! ### Every tree refines the stacks -/

theorem createServerStack_concat (newServer : String → Option Srv → Except GoError Srv)
    (stack : List String) (a : String) :
    createServerStack newServer (stack ++ [a]) =
      createServerStack newServer stack >>= fun server => some <$> newServer a server := by
  simp only [createServerStack, List.foldlM_append, List.foldlM_cons, List.foldlM_nil, bind_pure]

theorem buildNext_new_server {newServer : String → Srv → Option Srv} {h h' : List (Node Srv)}
    {n c : Nat} {name : String} {root : Node Srv} (hroot : h[n]? = some root)
    (hfresh : root.next.lookup name = none) (hb : buildNext newServer h n name = some (h', c)) :
    ∃ s, newServer name root.server = some s ∧ h' =
      h.modify (fun node => { node with next := node.next ++ [(name, h.length)] }) n ++
        [⟨name, [], false, s⟩] := by
  simp only [buildNext, hroot, hfresh, Option.bind_eq_bind, Option.some_bind] at hb
  cases hs : newServer name root.server with
  | none => simp [hs] at hb
  | some s =>
    simp only [hs, Option.some_bind, Option.pure_def, Option.some.injEq, Prod.mk.injEq] at hb
    exact ⟨s, rfl, hb.1.symm⟩

section Stacked
variable (newServer : String → Option Srv → Except GoError Srv)

structure Stacked (s₀ : Srv) (h : List (Node Srv)) : Prop where
  root : (h[0]?).map Node.server = some s₀
  linked : ∀ {i a c}, Edge h i a c → ∃ si sc, (h[i]?).map Node.server = some si ∧
    (h[c]?).map Node.server = some sc ∧ newServer a (some si) = .ok sc

theorem server_setEndpoint (h : List (Node Srv)) (c i : Nat) :
    ((setEndpoint h c)[i]?).map Node.server = (h[i]?).map Node.server := by
  simp only [setEndpoint, List.getElem?_modify]
  cases h[i]? with
  | none => rfl
  | some v =>
    simp only [Option.map_eq_map, Option.map_some']
    split_ifs <;> rfl

theorem server_grow {h : List (Node Srv)} {n : Nat} {root : Node Srv} (hroot : h[n]? = some root)
    (name : String) (s : Srv) (i : Nat) :
    ((h.modify (fun node => { node with next := node.next ++ [(name, h.length)] }) n ++
        [⟨name, [], false, s⟩])[i]?).map Node.server =
      if i < h.length then (h[i]?).map Node.server else if i = h.length then some s else none := by
  rw [getElem?_grow hroot]
  split_ifs with h1 h2 <;> simp_all

theorem Stacked.setEndpoint {s₀ : Srv} {h : List (Node Srv)} (hs : Stacked newServer s₀ h)
    (c : Nat) : Stacked newServer s₀ (setEndpoint h c) := by
  refine ⟨by rw [server_setEndpoint, hs.root], fun e => ?_⟩
  simp only [server_setEndpoint]
  exact hs.linked (edge_setEndpoint.mp e)

theorem Stacked.grow {s₀ : Srv} {h : List (Node Srv)} (hs : Stacked newServer s₀ h) {n : Nat}
    {root : Node Srv} (hroot : h[n]? = some root) {name : String} {s : Srv}
    (hnew : newServer name (some root.server) = .ok s) :
    Stacked newServer s₀ (h.modify (fun node => { node with next := node.next ++
      [(name, h.length)] }) n ++ [⟨name, [], false, s⟩]) := by
  have hn : n < h.length := (List.getElem?_eq_some_iff.mp hroot).1
  refine ⟨?_, fun e => ?_⟩
  · rw [server_grow hroot, if_pos (by omega)]
    exact hs.root
  · rcases (edge_grow hroot rfl).mp e with e | ⟨rfl, rfl, rfl⟩
    · obtain ⟨si, sc, hi, hc, hnc⟩ := hs.linked e
      have lt : ∀ {j t}, (h[j]?).map Node.server = some t → j < h.length := fun hj =>
        (List.getElem?_eq_some_iff.mp (Option.map_eq_some'.mp hj).choose_spec.1).1
      rw [server_grow hroot, server_grow hroot, if_pos (lt hi), if_pos (lt hc)]
      exact ⟨si, sc, hi, hc, hnc⟩
    · rw [server_grow hroot, server_grow hroot, if_pos hn, if_neg (lt_irrefl _), if_pos rfl, hroot]
      exact ⟨_, _, rfl, rfl, hnew⟩

theorem Stacked.build {s₀ : Srv} {h h' : List (Node Srv)} (hs : Stacked newServer s₀ h)
    (hb : Build (fun a s => (newServer a (some s)).toOption) h h') : Stacked newServer s₀ h' := by
  cases hb with
  | @buildNext h' n c name endpoint hb =>
    have hs' : Stacked newServer s₀ h' := by
      rcases buildNext_cases hb with ⟨root, hroot, ⟨-, rfl⟩ | ⟨hfresh, -, -⟩⟩
      · exact hs
      · obtain ⟨s, hnew, rfl⟩ := buildNext_new_server hroot hfresh hb
        refine hs.grow newServer hroot ?_
        cases hr : newServer name (some root.server) <;> simp_all [Except.toOption]
    split
    exacts [hs'.setEndpoint newServer c, hs']

theorem stacked_run {root : Node Srv} (hroot : root.next = []) {h : List (Node Srv)}
    (hrun : ReflTransGen (Build fun a s => (newServer a (some s)).toOption) [root] h) :
    Stacked newServer root.server h := by
  induction hrun with
  | refl =>
    refine ⟨rfl, fun ⟨node, hnode, hm⟩ => ?_⟩
    obtain ⟨hi, rfl⟩ := List.getElem?_eq_some_iff.mp hnode
    simp only [List.length_singleton, Nat.lt_one_iff] at hi
    subst hi
    simp [hroot] at hm
  | tail _ hb ih => exact ih.build newServer hb

theorem Stacked.path {s₀ : Srv} {h : List (Node Srv)} (hs : Stacked newServer s₀ h) {name : String}
    (h0 : newServer name none = .ok s₀) {p : List (String × Nat)} {m : Nat} (hp : Path h 0 p m) :
    ∃ sm, (h[m]?).map Node.server = some sm ∧
      createServerStack newServer (name :: p.map Prod.fst) = .ok (some sm) := by
  induction hp with
  | nil => exact ⟨s₀, hs.root, by simp [createServerStack, h0]⟩
  | snoc _ e ih =>
    obtain ⟨sk, hk, hstack⟩ := ih
    obtain ⟨si, sc, hi, hc, hn⟩ := hs.linked e
    rw [hk, Option.some.injEq] at hi
    subst hi
    refine ⟨sc, hc, ?_⟩
    rw [List.map_append, List.map_singleton, ← List.cons_append, createServerStack_concat, hstack]
    change some <$> newServer _ (some sk) = _
    rw [hn]
    rfl

end Stacked

/-- From a root with no children whose server the tunnel named by the root built over `nil`,
after any run of `BuildNext` calls, each perhaps followed by setting `IsEndpoint` on the node it
returned: the server of every cell is the one `CreateServerStack` builds over the names on the
cell's path from the root. -/
theorem buildNext_server_stack (newServer : String → Option Srv → Except GoError Srv)
    {root : Node Srv} (hroot : root.next = []) (h0 : newServer root.name none = .ok root.server)
    {h : List (Node Srv)}
    (hrun : ReflTransGen (Build fun a s => (newServer a (some s)).toOption) [root] h)
    {p : List (String × Nat)} {m : Nat} (hp : Path h 0 p m) :
    ∃ node, h[m]? = some node ∧
      createServerStack newServer (root.name :: p.map Prod.fst) = .ok (some node.server) := by
  obtain ⟨sm, hm, hstack⟩ := (stacked_run newServer hroot hrun).path newServer h0 hp
  obtain ⟨node, hnode, rfl⟩ := Option.map_eq_some'.mp hm
  exact ⟨node, hnode, hstack⟩

def nameStack (name : String) (under : Option (List String)) : Except GoError (List String) :=
  .ok (name :: under.getD [])

theorem buildNext_server_stack_tlsTrojan :
    ∃ node, tlsTrojan[2]? = some node ∧
      createServerStack nameStack ["TRANSPORT", "TLS", "TROJAN"] = .ok (some node.server) :=
  @buildNext_server_stack _ nameStack transportRoot rfl rfl tlsTrojan tlsTrojan_run
    [("TLS", 1), ("TROJAN", 2)] 2
    (.snoc (.snoc .nil ⟨_, rfl, List.mem_cons_self _ _⟩) ⟨_, rfl, List.mem_cons_self _ _⟩)

/-! ### Evaluating the trees -/

section Eval
variable (newServer : String → Srv → Option Srv)

theorem buildNext_cons (x : Node Srv) (xs : List (Node Srv)) (n : Nat) (a : String) :
    buildNext newServer (x :: xs) n a = ((x :: xs)[n]?).bind fun node =>
      match node.next.lookup a with
      | some next => some (x :: xs, next)
      | none => (newServer a node.server).bind fun s =>
        some ((x :: xs).modify (fun n => { n with next := n.next ++ [(a, (x :: xs).length)] }) n ++
          [⟨a, [], false, s⟩], (x :: xs).length) := by
  simp only [buildNext, Option.bind_eq_bind]
  rfl

theorem setEndpoint_cons (x : Node Srv) (xs : List (Node Srv)) (c : Nat) :
    setEndpoint (x :: xs) c = (x :: xs).modify (fun node => { node with isEndpoint := true }) c :=
  rfl

end Eval

def clientStacks (transportPlugin shadowsocks : Bool) : List (List String) :=
  [false, true].flatMap fun ws => [false, true].map fun mux =>
    generateClientTree names transportPlugin mux ws shadowsocks false

theorem serverTree_endpoints (mk : String → Option Srv → Srv) (tp ss : Bool) :
    ((serverTree names (fun a s => some (mk a (some s))) tp ss
        [⟨names.transport, [], false, mk names.transport none⟩]).bind fun r =>
      findAllEndpoints (fun _ l => l) r.1 r.1.length r.2).map (List.map some) =
      some ((clientStacks names tp ss).map fun stack => stack.foldl (fun u a => some (mk a u)) none) := by
  obtain ⟨hwt, hws, -⟩ := names.siblings_ne
  have hb : (names.websocket == names.trojan) = false := by simpa using hwt
  have hb' : (names.websocket == names.shadowsocks) = false := by simpa using hws
  cases tp <;> cases ss <;>
    simp only [serverTree, buildChain, buildNext_cons, markEndpoint, setEndpoint_cons,
      List.lookup_cons_self, List.lookup_cons, List.lookup_nil, hb, hb',
      List.length_singleton, List.length_cons, List.length_nil, Nat.reduceAdd,
      List.getElem?_cons_zero, List.getElem?_cons_succ, List.modify_zero_cons, List.modify_succ_cons, List.nil_append,
      List.singleton_append, List.cons_append, List.append_assoc, List.append_nil, Option.some_bind,
      Option.bind_some, Option.map_bind, Option.map_some', Option.pure_def, Option.bind_eq_bind,
      Prod.mk.eta, Function.comp_apply, Bool.not_false, Bool.not_true, ↓reduceIte] <;>
    rfl

theorem clientTree_endpoints (mk : String → Option Srv → Srv) :
    ((clientTree names (fun a s => some (mk a (some s)))
        [⟨names.adapter, [], false, mk names.adapter none⟩]).bind fun h =>
      findAllEndpoints (fun _ l => l) h h.length 0).map (List.map some) =
      some ([[names.adapter, names.http], [names.adapter, names.socks]].map fun stack =>
        stack.foldl (fun u a => some (mk a u)) none) := by
  obtain ⟨-, -, hsh⟩ := names.siblings_ne
  have hb : (names.socks == names.http) = false := by simpa using hsh
  simp only [clientTree, buildChain, buildNext_cons, markEndpoint, setEndpoint_cons,
    List.lookup_cons, List.lookup_nil, hb, List.length_singleton, List.length_cons, List.length_nil,
    Nat.reduceAdd, List.getElem?_cons_zero, List.modify_zero_cons, List.modify_succ_cons, List.nil_append,
    List.singleton_append, List.cons_append, Option.some_bind, Option.bind_some, Option.map_bind,
    Option.map_some', Option.pure_def, Option.bind_eq_bind, Prod.mk.eta, Function.comp_apply]
  rfl

theorem mapM_ok {α β ε : Type} (g : α → β) (l : List α) :
    l.mapM (fun x => (Except.ok (g x) : Except ε β)) = .ok (l.map g) := by
  induction l with
  | nil => rfl
  | cons x l ih => rw [List.mapM_cons, ih]; rfl

theorem findAllEndpoints_some_of_perm {order : Nat → List (String × Nat) → List (String × Nat)}
    (horder : ∀ n l, List.Perm (order n l) l) {h : List (Node Srv)} {fuel n : Nat}
    {l : List Srv} (hl : findAllEndpoints (fun _ l => l) h fuel n = some l) :
    ∃ l', findAllEndpoints order h fuel n = some l' ∧ l'.Perm l := by
  have hrel := @findAllEndpoints_perm_order _ order (fun _ l => l) horder h fuel n
  rw [hl] at hrel
  match findAllEndpoints order h fuel n, hrel with
  | _, .some hp => exact ⟨_, rfl, hp⟩

theorem serverProxy_serves_clientStacks (newServer : String → Option Srv → Except GoError Srv)
    (newClient : String → Option Cli → Except GoError Cli)
    (hs : ∀ name u, ∃ s, newServer name u = .ok s) (hc : ∀ name c, ∃ c', newClient name c = .ok c')
    (order : Nat → List (String × Nat) → List (String × Nat))
    (horder : ∀ n l, List.Perm (order n l) l) (cfg : Config) :
    ∃ sources sink built, serverProxy names newServer newClient order cfg = .proxy sources sink ∧
      (clientStacks names cfg.transportPlugin cfg.shadowsocks).mapM (createServerStack newServer) =
        .ok built ∧ List.Perm (sources.map some) built := by
  choose mk hmk using hs
  choose mc hmc using hc
  obtain rfl : newServer = fun a u => .ok (mk a u) := funext fun a => funext (hmk a)
  obtain rfl : newClient = fun a c => .ok (mc a c) := funext fun a => funext (hmc a)
  have key := serverTree_endpoints names mk cfg.transportPlugin cfg.shadowsocks
  cases ht : serverTree names (fun a s => some (mk a (some s))) cfg.transportPlugin cfg.shadowsocks
      [⟨names.transport, [], false, mk names.transport none⟩] with
  | none => simp [ht] at key
  | some r =>
    obtain ⟨h, root⟩ := r
    rw [ht, Option.some_bind] at key
    obtain ⟨l, hl, hmap⟩ := Option.map_eq_some'.mp key
    obtain ⟨l', hl', hperm⟩ := findAllEndpoints_some_of_perm horder hl
    refine ⟨l', (if cfg.router then [names.freedom, names.router] else [names.freedom]).foldl
      (fun c a => some (mc a c)) none, l.map some, ?_, ?_, hperm.map some⟩
    · simp only [serverProxy, Except.toOption, ht, hl', createClientStack_ok]
    · rw [show createServerStack (fun a u => .ok (mk a u)) = _ from funext (createServerStack_ok mk),
        mapM_ok, hmap]

def demoNames : TunnelNames :=
  ⟨"TRANSPORT", "TLS", "WEBSOCKET", "SHADOWSOCKS", "TROJAN", "MUX", "SIMPLESOCKS", "ROUTER",
    "FREEDOM", "ADAPTER", "HTTP", "SOCKS", by decide⟩

theorem clientProxy_created (newServer : String → Option Srv → Except GoError Srv)
    (newClient : String → Option Cli → Except GoError Cli)
    (hs : ∀ name u, ∃ s, newServer name u = .ok s) (hc : ∀ name c, ∃ c', newClient name c = .ok c')
    (order : Nat → List (String × Nat) → List (String × Nat))
    (horder : ∀ n l, List.Perm (order n l) l) (cfg : Config) :
    ∃ sources sink built, clientProxy names newServer newClient order cfg = .proxy sources sink ∧
      createClientStack newClient (generateClientTree names cfg.transportPlugin cfg.mux
        cfg.websocket cfg.shadowsocks cfg.router) = .ok sink ∧
      [[names.adapter, names.http], [names.adapter, names.socks]].mapM
        (createServerStack newServer) = .ok built ∧ List.Perm (sources.map some) built := by
  choose mk hmk using hs
  choose mc hmc using hc
  obtain rfl : newServer = fun a u => .ok (mk a u) := funext fun a => funext (hmk a)
  obtain rfl : newClient = fun a c => .ok (mc a c) := funext fun a => funext (hmc a)
  have key := clientTree_endpoints names mk
  cases ht : clientTree names (fun a s => some (mk a (some s)))
      [⟨names.adapter, [], false, mk names.adapter none⟩] with
  | none => simp [ht] at key
  | some h =>
    rw [ht, Option.some_bind] at key
    obtain ⟨l, hl, hmap⟩ := Option.map_eq_some'.mp key
    obtain ⟨l', hl', hperm⟩ := findAllEndpoints_some_of_perm horder hl
    refine ⟨l', _, l.map some, ?_, createClientStack_ok mc _, ?_, hperm.map some⟩
    · simp only [clientProxy, Except.toOption, ht, hl', createClientStack_ok]
    · rw [show createServerStack (fun a u => .ok (mk a u)) = _ from funext (createServerStack_ok mk),
        mapM_ok, hmap]

end TrojanGo.Stacks
