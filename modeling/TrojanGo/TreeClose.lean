import TrojanGo.Pipeline

/-!
# Closing the server tree

`Proxy.Close` calls `Close` on every source, and every server but the transport one closes its
underlay, the server of the node it was built under (the `SHADOWSOCKS` and `SIMPLESOCKS` servers,
not under src/, are taken to do the same). For every tree `BuildNext` calls build, every server is
closed, and the transport server's `Close` runs once per source (`proxyClose_closes_all`).
-/

set_option autoImplicit false

namespace TrojanGo.TreeClose
open TrojanGo.Pipeline Relation

variable {Srv : Type}

/-- The cell whose `Next` map points at `c`: its server is the underlay of the server of `c`. -/
def underlayOf (h : List (Node Srv)) (c : Nat) : Option Nat :=
  (List.range h.length).find? fun i => (h[i]?.map fun node => node.next.any (·.2 == c)).getD false

/-- `s.Close()` on the server of the cell `c`: the cells whose `Close` runs, from `c` down to the
root, at most `fuel` of them. -/
def closeChain (h : List (Node Srv)) : (fuel c : Nat) → List Nat
  | 0, _ => []
  | fuel + 1, c => c :: match underlayOf h c with
    | some i => closeChain h fuel i
    | none => []

def isSource (h : List (Node Srv)) (j : Nat) : Bool := (endpointServer h j).isSome

/-- `Proxy.Close`: `source.Close()` for every source in turn, the sources given by their cells.
The cells whose `Close` runs, once per run. -/
def proxyClose (h : List (Node Srv)) (sources : List Nat) : List Nat :=
  sources.flatMap (closeChain h h.length)

theorem isSource_lt {h : List (Node Srv)} {j : Nat} (hj : isSource h j = true) : j < h.length := by
  by_contra hge
  simp [isSource, endpointServer, List.getElem?_eq_none (Nat.le_of_not_lt hge)] at hj

theorem underlay_test_iff (h : List (Node Srv)) (c j : Nat) :
    ((h[j]?.map fun node => node.next.any (·.2 == c)).getD false) = true ↔ ∃ b, Edge h j b c := by
  cases hj : h[j]? with
  | none => simp [Edge, hj]
  | some node => simp [Edge, hj]

section Tree
variable {h : List (Node Srv)} (ht : Tree h)
include ht

theorem underlayOf_eq {i c : Nat} {a : String} (e : Edge h i a c) : underlayOf h c = some i := by
  have hi := ht.edge_lt e
  obtain ⟨k, hk⟩ : ∃ k, underlayOf h c = some k := Option.isSome_iff_exists.mp
    (List.find?_isSome.mpr ⟨i, List.mem_range.mpr (by omega), (underlay_test_iff h c i).mpr ⟨a, e⟩⟩)
  rw [hk]
  unfold underlayOf at hk
  have htest := List.find?_some hk
  obtain ⟨b, e'⟩ := (underlay_test_iff h c k).mp htest
  rw [(ht.parent_unique e' e).1]

theorem underlayOf_lt {c i : Nat} (hu : underlayOf h c = some i) : i < c := by
  unfold underlayOf at hu
  have htest := List.find?_some hu
  obtain ⟨b, e⟩ := (underlay_test_iff h c i).mp htest
  exact (ht.edge_lt e).1

theorem underlayOf_zero : underlayOf h 0 = none := by
  cases hu : underlayOf h 0 with
  | none => rfl
  | some i => exact absurd (underlayOf_lt ht hu) (Nat.not_lt_zero i)

theorem reach_edge_iff {i c m : Nat} {a : String} (e : Edge h i a c) :
    Reach h m c ↔ m = c ∨ Reach h m i := by
  constructor
  · rintro ⟨p, hp⟩
    cases hp with
    | nil => exact .inl rfl
    | snoc hp e' => exact .inr ⟨_, (ht.parent_unique e' e).1 ▸ hp⟩
  · rintro (rfl | ⟨p, hp⟩)
    exacts [⟨[], .nil⟩, ⟨_, .snoc hp e⟩]

theorem reach_zero_iff {m : Nat} : Reach h m 0 ↔ m = 0 :=
  ⟨fun ⟨_, hp⟩ => Nat.le_zero.mp (hp.le ht).1, fun hm => hm ▸ ⟨[], .nil⟩⟩

theorem closeChain_iff : ∀ fuel c, c < h.length → c < fuel →
    ∀ m, m ∈ closeChain h fuel c ↔ Reach h m c
  | 0, c, _, hc => absurd hc (Nat.not_lt_zero c)
  | fuel + 1, c, hcl, hc => by
    intro m
    rcases Nat.eq_zero_or_pos c with rfl | hpos
    · simp [closeChain, underlayOf_zero ht, reach_zero_iff ht]
    · obtain ⟨i, a, e⟩ := ht.has_parent hpos hcl
      have hi := ht.edge_lt e
      rw [closeChain, underlayOf_eq ht e, List.mem_cons,
        closeChain_iff fuel i (by omega) (by omega) m, reach_edge_iff ht e]

theorem closeChain_le_nodup : ∀ fuel c, (∀ m ∈ closeChain h fuel c, m ≤ c) ∧ (closeChain h fuel c).Nodup
  | 0, _ => ⟨fun _ hm => absurd hm (List.not_mem_nil _), List.nodup_nil⟩
  | fuel + 1, c => by
    cases hu : underlayOf h c with
    | none => simp [closeChain, hu]
    | some i =>
      have hi := underlayOf_lt ht hu
      obtain ⟨hle, hnd⟩ := closeChain_le_nodup fuel i
      simp only [closeChain, hu, List.mem_cons, List.nodup_cons]
      exact ⟨fun m hm => hm.elim (·.le) fun hm => (hle m hm).trans hi.le,
        fun hc => absurd (hle c hc) (by omega), hnd⟩

theorem exists_source_below (m : Nat) (hm : m < h.length) : ∃ j, isSource h j = true ∧ Reach h m j := by
  obtain ⟨node, hnode⟩ : ∃ node, h[m]? = some node := ⟨_, List.getElem?_eq_getElem hm⟩
  cases hnext : node.next with
  | nil => exact ⟨m, by simp [isSource, endpointServer, hnode, hnext], ⟨[], .nil⟩⟩
  | cons e es =>
    have he : Edge h m e.1 e.2 := ⟨node, hnode, by simp [hnext]⟩
    have hlt := ht.edge_lt he
    obtain ⟨j, hj, p, hp⟩ := exists_source_below e.2 hlt.2
    exact ⟨j, hj, _, hp.cons he⟩
termination_by h.length - m
decreasing_by omega

end Tree

theorem filterMap_filter_isSource (h : List (Node Srv)) (ids : List Nat) :
    (ids.filter (isSource h)).filterMap (endpointServer h) = ids.filterMap (endpointServer h) := by
  induction ids with
  | nil => rfl
  | cons j ids ih =>
    cases hj : endpointServer h j <;> simp [isSource, hj, ih, List.filterMap_cons]

theorem count_zero_proxyClose {h : List (Node Srv)} (ht : Tree h) (sources : List Nat)
    (hs : ∀ j ∈ sources, j < h.length) : (proxyClose h sources).count 0 = sources.length := by
  induction sources with
  | nil => rfl
  | cons j sources ih =>
    have hj := hs j (List.mem_cons_self _ _)
    have h0 : 0 ∈ closeChain h h.length j :=
      (closeChain_iff ht h.length j hj hj 0).mpr ((reach_root_iff ht).mpr hj)
    rw [proxyClose, List.flatMap_cons, List.count_append,
      List.count_eq_one_of_mem (closeChain_le_nodup ht h.length j).2 h0]
    rw [proxyClose] at ih
    rw [ih fun j hj => hs j (List.mem_cons_of_mem _ hj), List.length_cons, Nat.add_comm]

/-- After any run of `BuildNext` calls from a root with no children, in every order of visiting
the maps: `FindAllEndpoints(root)` returns the servers of the sources among the cells it walks,
each once; `Proxy.Close` then runs the `Close` of every server of the tree; and the transport
server's `Close` at the root runs once per source. -/
theorem proxyClose_closes_all (newServer : String → Srv → Option Srv) {root : Node Srv}
    (hroot : root.next = []) {h : List (Node Srv)} (hrun : ReflTransGen (Build newServer) [root] h)
    (order : Nat → List (String × Nat) → List (String × Nat)) (horder : ∀ n l, List.Perm (order n l) l) :
    ∃ sources : List Nat, sources.Nodup ∧ (∀ j ∈ sources, isSource h j = true) ∧
      findAllEndpoints order h h.length 0 = some (sources.filterMap (endpointServer h)) ∧
      (∀ m, m < h.length → m ∈ proxyClose h sources) ∧
      (proxyClose h sources).count 0 = sources.length := by
  have ht := tree_run hroot hrun
  obtain ⟨ids, hv, hnd, hm⟩ := visit_spec ht horder h.length 0 ht.root (by omega)
  have hlt : ∀ j ∈ ids, j < h.length := fun j hj => (reach_root_iff ht).mp ((hm j).mp hj)
  refine ⟨ids.filter (isSource h), hnd.filter _, fun j hj => (List.mem_filter.mp hj).2, ?_, ?_,
    count_zero_proxyClose ht _ fun j hj => hlt j (List.mem_filter.mp hj).1⟩
  · rw [filterMap_filter_isSource, findAllEndpoints_eq, hv]
    rfl
  · intro m hmlt
    obtain ⟨j, hsrc, hr⟩ := exists_source_below ht m hmlt
    have hjlt := isSource_lt hsrc
    exact List.mem_flatMap.mpr ⟨j, List.mem_filter.mpr ⟨(hm j).mpr ((reach_root_iff ht).mpr hjlt), hsrc⟩,
      (closeChain_iff ht h.length j hjlt hjlt m).mpr hr⟩

theorem proxyClose_closes_all_tlsTrojan :
    transportRoot.next = [] ∧ ReflTransGen (Build stackServer) [transportRoot] tlsTrojan ∧
      (∀ n l, List.Perm ((fun _ l => l : Nat → List (String × Nat) → List (String × Nat)) n l) l) ∧
      ∃ sources : List Nat, sources.Nodup ∧ (∀ j ∈ sources, isSource tlsTrojan j = true) ∧
        findAllEndpoints (fun _ l => l) tlsTrojan tlsTrojan.length 0 =
          some (sources.filterMap (endpointServer tlsTrojan)) ∧
        (∀ m, m < tlsTrojan.length → m ∈ proxyClose tlsTrojan sources) ∧
        (proxyClose tlsTrojan sources).count 0 = sources.length :=
  ⟨rfl, tlsTrojan_run, fun _ _ => List.Perm.refl _,
    proxyClose_closes_all stackServer rfl tlsTrojan_run (fun _ l => l) fun _ _ => List.Perm.refl _⟩

end TrojanGo.TreeClose
