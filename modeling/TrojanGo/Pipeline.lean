import Mathlib.Data.List.Nodup
import Mathlib.Data.List.Perm.Basic
import Mathlib.Logic.Relation

/-!
# The protocol tree

A `proxy.Node` holds a protocol's name, its children by name (`Next`) and the server built over
its parent's. Nodes are heap cells and pointers indices: every run of `BuildNext` calls keeps the
heap a tree, and `FindAllEndpoints` returns the server of each endpoint and each leaf once, in
every visiting order (`buildNext_keeps_tree`).
-/

set_option autoImplicit false

namespace TrojanGo.Pipeline
open Relation

/-- `proxy.Node`: the protocol's name, its `Next` map as (name, child) entries, `IsEndpoint` and
its `tunnel.Server`. The node's `Context`, which `BuildNext` copies from the parent, and its
`tunnel.Client` are left out: nothing here reads them. -/
structure Node (Srv : Type) where
  name : String
  next : List (String × Nat)
  isEndpoint : Bool
  server : Srv
  deriving DecidableEq, Repr

variable {Srv : Type}

/-! ### The code -/

section Build
variable (newServer : String → Srv → Option Srv)

/-- `n.BuildNext(name)` on a heap, for the node at `n`: the child called `name` if there is one;
otherwise the server that `newServer` builds over `n.Server` (`none`, a failed `GetTunnel` or
`NewServer`, is `log.Fatal`), a new cell for it, and `n.Next[name]` pointing at the cell. -/
def buildNext (h : List (Node Srv)) (n : Nat) (name : String) :
    Option (List (Node Srv) × Nat) := do
  let node ← h[n]?
  match node.next.lookup name with
  | some next => pure (h, next)
  | none =>
    let s ← newServer name node.server
    let newNode : Node Srv := ⟨name, [], false, s⟩
    pure (h.modify (fun n => { n with next := n.next ++ [(name, h.length)] }) n ++ [newNode],
      h.length)

/-- `.IsEndpoint = true` on the node at `c`. -/
def setEndpoint (h : List (Node Srv)) (c : Nat) : List (Node Srv) :=
  h.modify (fun node => { node with isEndpoint := true }) c

/-- One call of the construction: `BuildNext(name)` on a node of the heap, then, if `endpoint`,
`.IsEndpoint = true` on the node it returned. -/
inductive Build : List (Node Srv) → List (Node Srv) → Prop
  | buildNext {h h' : List (Node Srv)} {n c : Nat} (name : String) (endpoint : Bool)
      (hb : buildNext newServer h n name = some (h', c)) :
      Build h (if endpoint then setEndpoint h' c else h')

end Build

section Walk
variable (order : Nat → List (String × Nat) → List (String × Nat))

/-- `FindAllEndpoints` on the node at `n`, at most `fuel` nodes deep (`none` once it runs
out); `order n` is the order in which `range` visits the `Next` map of the node at `n`. -/
def findAllEndpoints (h : List (Node Srv)) : (fuel n : Nat) → Option (List Srv)
  | 0, _ => none
  | fuel + 1, n => do
    let root ← h[n]?
    let list := if root.isEndpoint || root.next.length == 0 then [root.server] else []
    (order n root.next).foldlM (fun list next => do
      let l ← findAllEndpoints h fuel next.2
      pure (list ++ l)) list

def visit (h : List (Node Srv)) : (fuel n : Nat) → Option (List Nat)
  | 0, _ => none
  | fuel + 1, n => do
    let root ← h[n]?
    let ids ← (order n root.next).mapM fun next => visit h fuel next.2
    pure (n :: ids.flatten)

end Walk

/-- The server `FindAllEndpoints` collects from the cell `i`: an endpoint's or a leaf's. -/
def endpointServer (h : List (Node Srv)) (i : Nat) : Option Srv := do
  let node ← h[i]?
  if node.isEndpoint || node.next.length == 0 then some node.server else none

/-! ### The loop of `FindAllEndpoints` -/

theorem foldlM_append {α β : Type} (F : α → Option (List β)) (l : List α) (init : List β) :
    l.foldlM (fun acc x => (F x).bind fun v => some (acc ++ v)) init =
      (l.mapM F).map fun vs => init ++ vs.flatten := by
  induction l generalizing init with
  | nil => simp only [List.foldlM_nil, List.mapM_nil, Option.pure_def, Option.map_some',
      List.flatten_nil, List.append_nil]
  | cons x l ih =>
    rw [List.foldlM_cons, List.mapM_cons]
    cases F x with
    | none => rfl
    | some v =>
      simp only [Option.bind_eq_bind, Option.some_bind, Option.pure_def, ih]
      cases l.mapM F <;> simp

theorem mapM_of_forall {α β : Type} {F : α → Option β} {G : α → β} {l : List α}
    (h : ∀ x ∈ l, F x = some (G x)) : l.mapM F = some (l.map G) := by
  induction l with
  | nil => rfl
  | cons x l ih =>
    rw [List.mapM_cons, h x (List.mem_cons_self _ _), ih fun y hy => h y (List.mem_cons_of_mem _ hy)]
    rfl

theorem mapM_map_of_eq {α β γ : Type} {F : α → Option β} {G : α → Option γ} {φ : γ → β}
    {l : List α} (h : ∀ x ∈ l, F x = (G x).map φ) : l.mapM F = (l.mapM G).map (List.map φ) := by
  induction l with
  | nil => rfl
  | cons x l ih =>
    rw [List.mapM_cons, List.mapM_cons, h x (List.mem_cons_self _ _),
      ih fun y hy => h y (List.mem_cons_of_mem _ hy)]
    cases G x <;> cases l.mapM G <;> rfl

variable (order : Nat → List (String × Nat) → List (String × Nat))

theorem findAllEndpoints_eq (h : List (Node Srv)) (fuel n : Nat) :
    findAllEndpoints order h fuel n = (visit order h fuel n).map (List.filterMap (endpointServer h)) := by
  induction fuel generalizing n with
  | zero => rfl
  | succ fuel ih =>
    simp only [findAllEndpoints, visit]
    cases hn : h[n]? with
    | none => rfl
    | some root =>
      simp only [Option.bind_eq_bind, Option.some_bind, Option.pure_def]
      rw [foldlM_append, mapM_map_of_eq fun x _ => ih x.2]
      cases (order n root.next).mapM fun next => visit order h fuel next.2 with
      | none => rfl
      | some vs =>
        simp only [Option.map_some', Option.some_bind, List.filterMap_cons, List.filterMap_flatten,
          endpointServer, hn]
        split <;> simp_all

/-! ### The order of `range` -/

theorem rel_perm_trans {β : Type} {a b c : Option (List β)} (hab : Option.Rel List.Perm a b)
    (hbc : Option.Rel List.Perm b c) : Option.Rel List.Perm a c := by
  cases hab with
  | none => cases hbc; exact .none
  | some p => cases hbc with | some q => exact .some (p.trans q)

theorem mapM_flatten_rel {α β : Type} {F G : α → Option (List β)}
    (hFG : ∀ x, Option.Rel List.Perm (F x) (G x)) (l : List α) :
    Option.Rel List.Perm ((l.mapM F).map List.flatten) ((l.mapM G).map List.flatten) := by
  induction l with
  | nil => exact .some (List.Perm.refl _)
  | cons x l ih =>
    rw [List.mapM_cons, List.mapM_cons]
    cases hF : F x <;> cases hG : G x <;> have hx := hFG x <;> rw [hF, hG] at hx <;> cases hx
    · exact .none
    · rename_i p
      cases hl : l.mapM F <;> cases hl' : l.mapM G <;> rw [hl, hl'] at ih <;> cases ih
      · exact .none
      · rename_i q
        exact .some (p.append q)

theorem mapM_flatten_perm {α β : Type} (F : α → Option (List β)) {l₁ l₂ : List α}
    (hl : l₁.Perm l₂) :
    Option.Rel List.Perm ((l₁.mapM F).map List.flatten) ((l₂.mapM F).map List.flatten) := by
  induction hl with
  | nil => exact .some (List.Perm.refl _)
  | cons x _ ih =>
    rw [List.mapM_cons, List.mapM_cons]
    cases F x with
    | none => exact .none
    | some v =>
      cases hl : List.mapM F _ <;> cases hl' : List.mapM F _ <;> rw [hl, hl'] at ih <;> cases ih
      · exact .none
      · rename_i q
        exact .some (q.append_left v)
  | swap x y l =>
    simp only [List.mapM_cons]
    cases F x <;> cases F y <;> cases List.mapM F l <;>
      simp only [Option.bind_eq_bind, Option.none_bind, Option.some_bind, Option.pure_def,
        Option.map_none', Option.map_some', List.flatten_cons] <;>
      first | exact .none | exact .some (List.perm_append_comm_assoc _ _ _)
  | trans _ _ ih₁ ih₂ => exact rel_perm_trans ih₁ ih₂

theorem findAllEndpoints_perm_order {order order' : Nat → List (String × Nat) → List (String × Nat)}
    (horder : ∀ n l, List.Perm (order n l) (order' n l)) (h : List (Node Srv)) :
    ∀ fuel n, Option.Rel List.Perm (findAllEndpoints order h fuel n)
      (findAllEndpoints order' h fuel n) := by
  intro fuel
  induction fuel with
  | zero => intro n; exact .none
  | succ fuel ih =>
    intro n
    simp only [findAllEndpoints]
    cases h[n]? with
    | none => exact .none
    | some root =>
      simp only [Option.bind_eq_bind, Option.some_bind, Option.pure_def, foldlM_append]
      have hrel := rel_perm_trans (mapM_flatten_rel (fun x => ih x.2) (order n root.next))
        (mapM_flatten_perm (fun x => findAllEndpoints order' h fuel x.2) (horder n root.next))
      revert hrel
      cases (order n root.next).mapM fun x => findAllEndpoints order h fuel x.2 <;>
        cases (order' n root.next).mapM fun x => findAllEndpoints order' h fuel x.2 <;>
        intro hrel <;> cases hrel
      · exact .none
      · exact .some (‹List.Perm _ _›.append_left _)

/-! ### Paths and the tree invariant -/

/-- `(a, c)` is an entry of the `Next` map of the node at `i`. -/
def Edge (h : List (Node Srv)) (i : Nat) (a : String) (c : Nat) : Prop :=
  ∃ node, h[i]? = some node ∧ (a, c) ∈ node.next

inductive Path (h : List (Node Srv)) (n : Nat) : List (String × Nat) → Nat → Prop
  | nil : Path h n [] n
  | snoc {p : List (String × Nat)} {k : Nat} {a : String} {m : Nat} :
      Path h n p k → Edge h k a m → Path h n (p ++ [(a, m)]) m

def Reach (h : List (Node Srv)) (n m : Nat) : Prop := ∃ p, Path h n p m

/-- The heap is a tree rooted at its first cell: every entry points from a cell to a later one,
no cell is the child of two entries, the names in a map are distinct, and every cell after the
root has a parent. -/
structure Tree (h : List (Node Srv)) : Prop where
  root : 0 < h.length
  edge_lt : ∀ {i a c}, Edge h i a c → i < c ∧ c < h.length
  keys_nodup : ∀ {i : Nat} {node : Node Srv}, h[i]? = some node → (node.next.map Prod.fst).Nodup
  parent_unique : ∀ {i j a b c}, Edge h i a c → Edge h j b c → i = j ∧ a = b
  has_parent : ∀ {c}, 0 < c → c < h.length → ∃ i a, Edge h i a c

section Tree
variable {h : List (Node Srv)}

theorem Path.cons {n c m : Nat} {a : String} {p : List (String × Nat)} (e : Edge h n a c)
    (hp : Path h c p m) : Path h n ((a, c) :: p) m := by
  induction hp with
  | nil => exact .snoc .nil e
  | snoc _ e' ih => exact .snoc ih e'

theorem reach_iff {n m : Nat} : Reach h n m ↔ m = n ∨ ∃ a c, Edge h n a c ∧ Reach h c m := by
  constructor
  · rintro ⟨p, hp⟩
    induction hp with
    | nil => exact .inl rfl
    | @snoc p k a m hp e ih =>
      rcases ih with rfl | ⟨a', c, e', q, hq⟩
      · exact .inr ⟨a, m, e, [], .nil⟩
      · exact .inr ⟨a', c, e', _, .snoc hq e⟩
  · rintro (rfl | ⟨a, c, e, p, hp⟩)
    exacts [⟨[], .nil⟩, ⟨_, hp.cons e⟩]

variable (ht : Tree h)
include ht

theorem Path.le {n m : Nat} {p : List (String × Nat)} (hp : Path h n p m) :
    n ≤ m ∧ (p ≠ [] → n < m) := by
  induction hp with
  | nil => exact ⟨le_rfl, fun h => absurd rfl h⟩
  | snoc _ e ih =>
    have := ht.edge_lt e
    exact ⟨by omega, fun _ => by omega⟩

theorem Path.eq_nil_of_cycle {n : Nat} {p : List (String × Nat)} (hp : Path h n p n) : p = [] := by
  by_contra hne
  exact lt_irrefl n ((hp.le ht).2 hne)

theorem Path.unique {n m : Nat} {p q : List (String × Nat)} (hp : Path h n p m)
    (hq : Path h n q m) : p = q := by
  induction hp generalizing q with
  | nil => exact (hq.eq_nil_of_cycle ht).symm
  | snoc hp e ih =>
    cases hq with
    | nil => simpa using (Path.snoc hp e).eq_nil_of_cycle ht
    | snoc hq e' =>
      obtain ⟨rfl, rfl⟩ := ht.parent_unique e e'
      rw [ih hq]

theorem reach_root_iff {m : Nat} : Reach h 0 m ↔ m < h.length := by
  constructor
  · rintro ⟨p, hp⟩
    cases hp with
    | nil => exact ht.root
    | snoc _ e => exact (ht.edge_lt e).2
  · intro hm
    induction m using Nat.strong_induction_on with
    | _ m ih =>
      rcases Nat.eq_zero_or_pos m with rfl | hpos
      · exact ⟨[], .nil⟩
      · obtain ⟨i, a, e⟩ := ht.has_parent hpos hm
        have hi := ht.edge_lt e
        obtain ⟨p, hp⟩ := ih i hi.1 (by omega)
        exact ⟨_, .snoc hp e⟩

theorem reach_total {c₁ c₂ m : Nat} (h₁ : Reach h c₁ m) (h₂ : Reach h c₂ m) :
    Reach h c₁ c₂ ∨ Reach h c₂ c₁ := by
  obtain ⟨p, hp⟩ := h₁
  induction hp generalizing c₂ with
  | nil => exact .inr h₂
  | snoc hp e ih =>
    obtain ⟨q, hq⟩ := h₂
    cases hq with
    | nil => exact .inl ⟨_, .snoc hp e⟩
    | snoc hq e' =>
      obtain ⟨rfl, -⟩ := ht.parent_unique e e'
      exact ih ⟨_, hq⟩

theorem children_disjoint {n c₁ c₂ m : Nat} {a b : String} (e₁ : Edge h n a c₁)
    (e₂ : Edge h n b c₂) (hab : a ≠ b) (h₁ : Reach h c₁ m) (h₂ : Reach h c₂ m) : False := by
  have below : ∀ {c c' : Nat} {a' b' : String}, Edge h n a' c → Edge h n b' c' → a' ≠ b' →
      ¬Reach h c c' := by
    rintro c c' a' b' e e' hne ⟨p, hp⟩
    cases hp with
    | nil => exact hne (ht.parent_unique e e').2
    | snoc hp e'' =>
      obtain ⟨rfl, -⟩ := ht.parent_unique e'' e'
      have := (hp.le ht).1
      have := (ht.edge_lt e).1
      omega
  rcases reach_total ht h₁ h₂ with h | h
  exacts [below e₁ e₂ hab h, below e₂ e₁ (Ne.symm hab) h]

end Tree

/-! ### The walk -/

section Visit
variable {h : List (Node Srv)} (ht : Tree h) {order} (horder : ∀ n l, List.Perm (order n l) l)
include ht horder

theorem visit_spec : ∀ fuel n, n < h.length → h.length ≤ n + fuel →
    ∃ ids, visit order h fuel n = some ids ∧ ids.Nodup ∧ ∀ m, m ∈ ids ↔ Reach h n m := by
  intro fuel
  induction fuel with
  | zero => intro n hn hf; omega
  | succ fuel ih =>
    intro n hn hf
    obtain ⟨root, hroot⟩ : ∃ root, h[n]? = some root := ⟨_, List.getElem?_eq_getElem hn⟩
    have hedge : ∀ e ∈ order n root.next, Edge h n e.1 e.2 :=
      fun e he => ⟨root, hroot, (horder n _).mem_iff.mp he⟩
    let G : String × Nat → List Nat := fun e => (visit order h fuel e.2).getD []
    have hG : ∀ e ∈ order n root.next, visit order h fuel e.2 = some (G e) ∧ (G e).Nodup ∧
        ∀ m, m ∈ G e ↔ Reach h e.2 m := by
      intro e he
      obtain ⟨ids, hv, hnd, hm⟩ := ih e.2 (ht.edge_lt (hedge e he)).2
        (by have := (ht.edge_lt (hedge e he)).1; omega)
      simp only [G, hv, Option.getD_some, true_and]
      exact ⟨hnd, hm⟩
    refine ⟨n :: (order n root.next).flatMap G, ?_, ?_, fun m => ?_⟩
    · simp only [visit, hroot, Option.bind_eq_bind, Option.some_bind,
        mapM_of_forall fun e he => (hG e he).1, List.flatMap_def]
      rfl
    · rw [List.nodup_cons, List.nodup_flatMap]
      refine ⟨fun hmem => ?_, fun e he => (hG e he).2.1, ?_⟩
      · obtain ⟨e, he, hne⟩ := List.mem_flatMap.mp hmem
        obtain ⟨p, hp⟩ := ((hG e he).2.2 n).mp hne
        have := (hp.le ht).1
        have := (ht.edge_lt (hedge e he)).1
        omega
      · have hkeys : ((order n root.next).map Prod.fst).Nodup :=
          ((horder n _).map Prod.fst).nodup_iff.mpr (ht.keys_nodup hroot)
        refine (List.pairwise_map.mp hkeys).imp_of_mem fun he₁ he₂ hne m hm₁ hm₂ =>
          children_disjoint ht (hedge _ he₁) (hedge _ he₂) hne (((hG _ he₁).2.2 m).mp hm₁)
            (((hG _ he₂).2.2 m).mp hm₂)
    · rw [reach_iff, List.mem_cons, List.mem_flatMap]
      refine or_congr_right ⟨fun ⟨e, he, hm⟩ => ⟨e.1, e.2, hedge e he, ((hG e he).2.2 m).mp hm⟩, ?_⟩
      rintro ⟨a, c, ⟨node, hnode, hmem⟩, hr⟩
      rw [hroot, Option.some.injEq] at hnode
      subst hnode
      have he : (a, c) ∈ order n root.next := (horder n _).mem_iff.mpr hmem
      exact ⟨(a, c), he, ((hG _ he).2.2 m).mpr hr⟩

theorem findAllEndpoints_perm :
    ∃ l, findAllEndpoints order h h.length 0 = some l ∧
      List.Perm l ((List.range h.length).filterMap (endpointServer h)) := by
  obtain ⟨ids, hv, hnd, hm⟩ := visit_spec ht horder h.length 0 ht.root (by omega)
  refine ⟨ids.filterMap (endpointServer h), by rw [findAllEndpoints_eq, hv]; rfl, ?_⟩
  refine List.Perm.filterMap _ ((List.perm_ext_iff_of_nodup hnd (List.nodup_range _)).mpr ?_)
  intro m
  rw [hm, List.mem_range, reach_root_iff ht]

end Visit

/-! ### The construction keeps the tree -/

theorem lookup_eq_none {l : List (String × Nat)} {a : String} (h : l.lookup a = none) :
    a ∉ l.map Prod.fst := by
  induction l with
  | nil => simp
  | cons e l ih =>
    obtain ⟨k, b⟩ := e
    by_cases hk : a = k
    · subst hk
      simp [List.lookup_cons] at h
    · rw [List.lookup_cons, show (a == k) = false by simpa using hk] at h
      simp only [List.map_cons, List.mem_cons, not_or]
      exact ⟨hk, ih h⟩

theorem lookup_eq_some {l : List (String × Nat)} {a : String} {c : Nat}
    (hl : (l.map Prod.fst).Nodup) (hm : (a, c) ∈ l) : l.lookup a = some c := by
  induction l with
  | nil => cases hm
  | cons e l ih =>
    obtain ⟨k, b⟩ := e
    rw [List.map_cons, List.nodup_cons] at hl
    rcases List.mem_cons.mp hm with he | he
    · cases he
      simp [List.lookup_cons]
    · have hk : a ≠ k := by
        rintro rfl
        exact hl.1 (by simpa using List.mem_map_of_mem Prod.fst he)
      rw [List.lookup_cons, show (a == k) = false by simpa using hk]
      exact ih hl.2 he

theorem buildNext_cases {newServer : String → Srv → Option Srv} {h h' : List (Node Srv)}
    {n c : Nat} {name : String} (hb : buildNext newServer h n name = some (h', c)) :
    ∃ root, h[n]? = some root ∧ ((root.next.lookup name = some c ∧ h' = h) ∨
      (root.next.lookup name = none ∧ c = h.length ∧ ∃ s, h' =
        h.modify (fun node => { node with next := node.next ++ [(name, h.length)] }) n ++
          [⟨name, [], false, s⟩])) := by
  unfold buildNext at hb
  cases hroot : h[n]? with
  | none => simp [hroot] at hb
  | some root =>
    simp only [hroot, Option.bind_eq_bind, Option.some_bind] at hb
    refine ⟨root, rfl, ?_⟩
    split at hb
    · cases hb
      exact .inl ⟨‹_›, rfl⟩
    · cases hs : newServer name root.server with
      | none => simp [hs] at hb
      | some s =>
        simp only [hs, Option.some_bind, Option.pure_def, Option.some.injEq, Prod.mk.injEq] at hb
        obtain ⟨rfl, rfl⟩ := hb
        exact .inr ⟨‹_›, rfl, s, rfl⟩

section Grow
variable {h : List (Node Srv)} {n : Nat} {root : Node Srv} (hroot : h[n]? = some root)
  {name : String} {leaf : Node Srv}
include hroot

theorem getElem?_grow (f : Node Srv → Node Srv) (i : Nat) :
    (h.modify f n ++ [leaf])[i]? =
      if i < h.length then (if n = i then some (f root) else h[i]?)
      else if i = h.length then some leaf else none := by
  split_ifs with h1 h2 h3
  · subst h2
    rw [List.getElem?_append_left (by simpa using h1), List.getElem?_modify, hroot]
    simp
  · rw [List.getElem?_append_left (by simpa using h1), List.getElem?_modify]
    cases h[i]? <;> simp [h2]
  · subst h3
    rw [List.getElem?_append_right (by simp)]
    simp
  · rw [List.getElem?_eq_none]
    simp only [List.length_append, List.length_modify, List.length_singleton]
    omega

theorem edge_grow (hleaf : leaf.next = []) {i : Nat} {a : String} {c : Nat} :
    Edge (h.modify (fun node => { node with next := node.next ++ [(name, h.length)] }) n ++ [leaf])
        i a c ↔ Edge h i a c ∨ (i = n ∧ a = name ∧ c = h.length) := by
  have hn : n < h.length := (List.getElem?_eq_some_iff.mp hroot).1
  unfold Edge
  rw [getElem?_grow hroot]
  split_ifs with h1 h2 h3
  · subst h2
    simp [hroot, or_comm]
  · simp [Ne.symm h2]
  · subst h3
    simp [hleaf, List.getElem?_eq_none, hn.ne']
  · rw [List.getElem?_eq_none (by omega)]
    simp only [reduceCtorEq, false_and, exists_false, false_or, false_iff, not_and]
    intro hi
    exact absurd hi (by omega)

theorem Tree.grow (ht : Tree h) (hfresh : root.next.lookup name = none) (s : Srv) :
    Tree (h.modify (fun node => { node with next := node.next ++ [(name, h.length)] }) n ++
      [⟨name, [], false, s⟩]) := by
  have hn : n < h.length := (List.getElem?_eq_some_iff.mp hroot).1
  have hedge : ∀ {i a c}, Edge (h.modify (fun node => { node with next := node.next ++
      [(name, h.length)] }) n ++ [⟨name, [], false, s⟩]) i a c ↔
      Edge h i a c ∨ (i = n ∧ a = name ∧ c = h.length) := edge_grow hroot rfl
  refine ⟨by simp, fun e => ?_, fun {i node} hnode => ?_, fun e₁ e₂ => ?_, fun {c} hc hlt => ?_⟩
  · rcases hedge.mp e with e | ⟨rfl, rfl, rfl⟩
    · have := ht.edge_lt e
      simp only [List.length_append, List.length_modify, List.length_singleton]
      omega
    · simp [hn]
  · rw [getElem?_grow hroot] at hnode
    split_ifs at hnode with h1 h2 h3
    · cases hnode
      simpa [List.nodup_append, lookup_eq_none hfresh] using ht.keys_nodup hroot
    · exact ht.keys_nodup hnode
    · cases hnode
      simp
  · rcases hedge.mp e₁ with o₁ | ⟨rfl, rfl, rfl⟩
    · rcases hedge.mp e₂ with o₂ | ⟨rfl, rfl, hc⟩
      · exact ht.parent_unique o₁ o₂
      · exact absurd (ht.edge_lt o₁).2 (by omega)
    · rcases hedge.mp e₂ with o₂ | ⟨rfl, rfl, -⟩
      · exact absurd (ht.edge_lt o₂).2 (lt_irrefl _)
      · exact ⟨rfl, rfl⟩
  · simp only [List.length_append, List.length_modify, List.length_singleton] at hlt
    rcases Nat.lt_succ_iff_lt_or_eq.mp hlt with hlt | rfl
    · obtain ⟨i, a, e⟩ := ht.has_parent hc hlt
      exact ⟨i, a, hedge.mpr (.inl e)⟩
    · exact ⟨n, name, hedge.mpr (.inr ⟨rfl, rfl, rfl⟩)⟩

end Grow

theorem edge_setEndpoint {h : List (Node Srv)} {c i : Nat} {a : String} {m : Nat} :
    Edge (setEndpoint h c) i a m ↔ Edge h i a m := by
  unfold Edge setEndpoint
  rw [List.getElem?_modify]
  cases h[i]? <;> simp
  split_ifs <;> simp

theorem tree_setEndpoint {h : List (Node Srv)} (ht : Tree h) (c : Nat) :
    Tree (setEndpoint h c) := by
  refine ⟨by simpa [setEndpoint, List.length_modify] using ht.root, fun e => ?_, fun {i node} hnode => ?_,
    fun e₁ e₂ => ht.parent_unique (edge_setEndpoint.mp e₁) (edge_setEndpoint.mp e₂),
    fun hc hlt => ?_⟩
  · simpa [setEndpoint, List.length_modify] using ht.edge_lt (edge_setEndpoint.mp e)
  · simp only [setEndpoint, List.getElem?_modify] at hnode
    cases hi : h[i]? with
    | none => simp [hi] at hnode
    | some node' =>
      simp only [hi, Option.map_eq_map, Option.map_some', Option.some.injEq] at hnode
      have := ht.keys_nodup hi
      split_ifs at hnode <;> (subst hnode; exact this)
  · obtain ⟨i, a, e⟩ := ht.has_parent hc (by simpa [setEndpoint, List.length_modify] using hlt)
    exact ⟨i, a, edge_setEndpoint.mpr e⟩

theorem Tree.build {newServer : String → Srv → Option Srv} {h h' : List (Node Srv)}
    (ht : Tree h) (hb : Build newServer h h') : Tree h' := by
  cases hb with
  | @buildNext h' n c name endpoint hb =>
    have ht' : Tree h' := by
      rcases buildNext_cases hb with ⟨root, hroot, ⟨-, rfl⟩ | ⟨hfresh, -, s, rfl⟩⟩
      exacts [ht, ht.grow hroot hfresh s]
    split
    exacts [tree_setEndpoint ht' c, ht']

theorem tree_run {newServer : String → Srv → Option Srv} {root : Node Srv} (hroot : root.next = [])
    {h : List (Node Srv)} (hrun : ReflTransGen (Build newServer) [root] h) : Tree h := by
  induction hrun with
  | refl =>
    have hnone : ∀ {i a c}, ¬Edge [root] i a c := by
      rintro i a c ⟨node, hnode, hm⟩
      rw [List.getElem?_eq_some_iff] at hnode
      obtain ⟨hi, rfl⟩ := hnode
      simp only [List.length_singleton, Nat.lt_one_iff] at hi
      subst hi
      simp [hroot] at hm
    refine ⟨by simp, fun e => absurd e hnone, fun {i node} hnode => ?_, fun e => absurd e hnone,
      fun hc hlt => by simp at hlt; omega⟩
    rw [List.getElem?_eq_some_iff] at hnode
    obtain ⟨hi, rfl⟩ := hnode
    simp only [List.length_singleton, Nat.lt_one_iff] at hi
    subst hi
    simp [hroot]
  | tail _ hb ih => exact ih.build hb

theorem buildNext_of_edge {h : List (Node Srv)} (ht : Tree h) {n c : Nat} {name : String}
    (e : Edge h n name c) (newServer : String → Srv → Option Srv) :
    buildNext newServer h n name = some (h, c) := by
  obtain ⟨node, hnode, hmem⟩ := e
  simp only [buildNext, hnode, Option.bind_eq_bind, Option.some_bind,
    lookup_eq_some (ht.keys_nodup hnode) hmem]
  rfl

/-- From a root with no children, after any run of `BuildNext` calls, each perhaps followed by
setting `IsEndpoint` on the node it returned: the cells are exactly those reached from the root,
each by one path, and no path comes back to where it started; `BuildNext` on an existing child
returns it and builds no server; and `FindAllEndpoints(root)`, in every order of visiting the
maps, returns the server of each endpoint and each leaf, once. -/
theorem buildNext_keeps_tree (newServer : String → Srv → Option Srv) {root : Node Srv}
    (hroot : root.next = []) {h : List (Node Srv)} (hrun : ReflTransGen (Build newServer) [root] h)
    (horder : ∀ n l, List.Perm (order n l) l) :
    (∀ m, m < h.length ↔ ∃ p, Path h 0 p m) ∧
    (∀ m p q, Path h 0 p m → Path h 0 q m → p = q) ∧
    (∀ n p, Path h n p n → p = []) ∧
    (∀ n name c, Edge h n name c →
      ∀ newServer' : String → Srv → Option Srv, buildNext newServer' h n name = some (h, c)) ∧
    ∃ l, findAllEndpoints order h h.length 0 = some l ∧
      List.Perm l ((List.range h.length).filterMap (endpointServer h)) := by
  have ht := tree_run hroot hrun
  exact ⟨fun m => (reach_root_iff ht).symm, fun m p q hp hq => hp.unique ht hq,
    fun n p hp => hp.eq_nil_of_cycle ht, fun n name c e => buildNext_of_edge ht e,
    findAllEndpoints_perm ht horder⟩

def stackServer (name : String) (underlay : List String) : Option (List String) :=
  some (name :: underlay)

def transportRoot : Node (List String) := ⟨"TRANSPORT", [], false, ["TRANSPORT"]⟩

/-- `TRANSPORT`, `TLS` under it, and the endpoint `TROJAN` under that. -/
def tlsTrojan : List (Node (List String)) :=
  [⟨"TRANSPORT", [("TLS", 1)], false, ["TRANSPORT"]⟩,
   ⟨"TLS", [("TROJAN", 2)], false, ["TLS", "TRANSPORT"]⟩,
   ⟨"TROJAN", [], true, ["TROJAN", "TLS", "TRANSPORT"]⟩]

theorem tlsTrojan_run : ReflTransGen (Build stackServer) [transportRoot] tlsTrojan :=
  .head (Build.buildNext (n := 0) "TLS" false rfl) <|
    .head (Build.buildNext (n := 1) "TROJAN" true rfl) <|
    .head (Build.buildNext (n := 1) "TROJAN" true rfl) .refl

theorem buildNext_keeps_tree_tlsTrojan :
    findAllEndpoints (fun _ l => l) tlsTrojan tlsTrojan.length 0 =
        some [["TROJAN", "TLS", "TRANSPORT"]] ∧
      ∃ l, findAllEndpoints (fun _ l => l) tlsTrojan tlsTrojan.length 0 = some l ∧
        List.Perm l ((List.range tlsTrojan.length).filterMap (endpointServer tlsTrojan)) :=
  ⟨rfl, (buildNext_keeps_tree (fun _ l => l) stackServer rfl tlsTrojan_run
    fun _ _ => List.Perm.refl _).2.2.2.2⟩

end TrojanGo.Pipeline
