import Mathlib.Data.List.Perm.Basic
import TrojanGo.Stream

/-!
# The configuration in the context

`WithJSONConfig` and `WithYAMLConfig` decode the configuration into every registered creator's
default, in whatever order `range` visits them, and store each result under its name with
`_CONFIG` appended, where `FromContext` reads it. A pass stores every module's decoded config, or
returns the context it was given with the error of a config that does not decode
(`withJSONConfig_stores`).
-/

set_option autoImplicit false

namespace TrojanGo.Config
open TrojanGo.Stream

variable {V : Type}

/-- A `context.Context` as the values `context.WithValue` put into it, the latest first. The
keys this repository puts there are strings; the values are of any type. -/
abbrev Context (V : Type) := List (String × V)

/-- `context.WithValue(ctx, key, val)`. -/
def withValue (ctx : Context V) (key : String) (val : V) : Context V := (key, val) :: ctx

/-- `ctx.Value(key)`: the value the latest `WithValue` with this key put, `nil` if none. -/
def value (ctx : Context V) (key : String) : Option V := ctx.lookup key

/-- `RegisterConfigCreator(name, creator)`: `creators[name + "_CONFIG"] = creator`. A creator is
the default config it makes. -/
def registerConfigCreator (creators : List (String × V)) (name : String) (creator : V) :
    List (String × V) :=
  let name := name ++ "_CONFIG"
  creators.filter (fun c => c.1 != name) ++ [(name, creator)]

/-- The two decoders: `json.Unmarshal` and `yaml.Unmarshal` of the data into a default config. -/
structure Codecs (V : Type) where
  json : Bytes → V → Except GoError V
  yaml : Bytes → V → Except GoError V

/-- The loop `parseJSON` and `parseYAML` share, over the creators in the order `range` visits
them: each creator's config decoded from the whole data, stopping at the first error. -/
def parseWith (unmarshal : Bytes → V → Except GoError V) (creators : List (String × V))
    (data : Bytes) : Except GoError (List (String × V)) :=
  creators.foldlM (fun result c => do
    let config ← unmarshal data c.2
    pure (result ++ [(c.1, config)])) []

def parseJSON (codecs : Codecs V) : List (String × V) → Bytes → Except GoError (List (String × V)) :=
  parseWith codecs.json

def parseYAML (codecs : Codecs V) : List (String × V) → Bytes → Except GoError (List (String × V)) :=
  parseWith codecs.yaml

/-- The rest `WithJSONConfig` and `WithYAMLConfig` share: the parsed configs put into the context
in the order `visit` gives (`range` over the result map), or on an error the context as it was
with the error. -/
def withParsed (parsed : Except GoError (List (String × V)))
    (visit : List (String × V) → List (String × V)) (ctx : Context V) : Context V × Option GoError :=
  match parsed with
  | .error err => (ctx, some err)
  | .ok configs => ((visit configs).foldl (fun ctx c => withValue ctx c.1 c.2) ctx, none)

section Orders
variable (codecs : Codecs V) (order₁ order₂ : List (String × V) → List (String × V))

/-- `WithJSONConfig(ctx, data)`; `order₁` and `order₂` are the orders `range` takes over the
creators and over the parsed configs. -/
def withJSONConfig (creators : List (String × V)) (ctx : Context V) (data : Bytes) :
    Context V × Option GoError :=
  withParsed (parseJSON codecs (order₁ creators) data) order₂ ctx

def withYAMLConfig (creators : List (String × V)) (ctx : Context V) (data : Bytes) :
    Context V × Option GoError :=
  withParsed (parseYAML codecs (order₁ creators) data) order₂ ctx

end Orders

def withConfig (ctx : Context V) (name : String) (cfg : V) : Context V :=
  withValue ctx (name ++ "_CONFIG") cfg

def fromContext (ctx : Context V) (name : String) : Option V := value ctx (name ++ "_CONFIG")

/-! ### `WithConfig` and `FromContext` -/

theorem append_config_inj {a b : String} (h : a ++ "_CONFIG" = b ++ "_CONFIG") : a = b := by
  have := congrArg String.data h
  simp only [String.data_append] at this
  exact String.ext (List.append_cancel_right this)

theorem fromContext_withConfig (ctx : Context V) (name : String) (cfg : V) (name' : String) :
    fromContext (withConfig ctx name cfg) name' =
      if name' = name then some cfg else fromContext ctx name' := by
  simp only [fromContext, withConfig, withValue, value, List.lookup_cons]
  split_ifs with h
  · subst h; simp
  · have : (name' ++ "_CONFIG" == name ++ "_CONFIG") = false := by
      simpa using fun e => h (append_config_inj e)
    rw [this]

/-! ### Decoding into the context -/

theorem parseWith_eq (unmarshal : Bytes → V → Except GoError V) (creators : List (String × V))
    (data : Bytes) :
    parseWith unmarshal creators data =
      creators.mapM fun c => (unmarshal data c.2).map fun config => (c.1, config) := by
  suffices ∀ acc : List (String × V), creators.foldlM (fun result c => do
      let config ← unmarshal data c.2
      pure (result ++ [(c.1, config)])) acc =
      (creators.mapM fun c => (unmarshal data c.2).map fun config => (c.1, config)).map
        (acc ++ ·) by
    refine (this []).trans ?_
    cases creators.mapM fun c => (unmarshal data c.2).map fun config => (c.1, config) <;> rfl
  induction creators with
  | nil => intro acc; exact congrArg pure (List.append_nil acc).symm
  | cons c cs ih =>
    intro acc
    rw [List.foldlM_cons, List.mapM_cons]
    cases unmarshal data c.2 with
    | error e => rfl
    | ok config =>
      show cs.foldlM _ (acc ++ [(c.1, config)]) = _
      rw [ih]
      cases cs.mapM fun c => (unmarshal data c.2).map fun config => (c.1, config) with
      | error e => rfl
      | ok vs => exact congrArg Except.ok (List.append_assoc acc [(c.1, config)] vs)

section Lookup
variable {α : Type} {unmarshal : V → Except GoError V}

theorem mapM_error {F : α → Except GoError (String × V)} {l : List α} {e : GoError}
    (h : l.mapM F = .error e) : ∃ x ∈ l, F x = .error e := by
  induction l with
  | nil => cases h
  | cons x l ih =>
    rw [List.mapM_cons] at h
    cases hx : F x with
    | error e' =>
      rw [hx] at h
      cases h
      exact ⟨x, List.mem_cons_self _ _, hx⟩
    | ok v =>
      rw [hx] at h
      cases hl : l.mapM F with
      | error e' =>
        rw [hl] at h
        cases h
        obtain ⟨y, hy, hFy⟩ := ih hl
        exact ⟨y, List.mem_cons_of_mem _ hy, hFy⟩
      | ok vs => rw [hl] at h; cases h

theorem mapM_decoded {l vs : List (String × V)}
    (h : (l.mapM fun c => (unmarshal c.2).map fun config => (c.1, config)) = .ok vs) :
    vs.map Prod.fst = l.map Prod.fst ∧ (∀ c ∈ l, ∃ cfg, unmarshal c.2 = .ok cfg) ∧
      ∀ k, vs.lookup k = (l.lookup k).bind fun d => (unmarshal d).toOption := by
  induction l generalizing vs with
  | nil => cases h; simp
  | cons c l ih =>
    obtain ⟨a, b⟩ := c
    rw [List.mapM_cons] at h
    cases hc : unmarshal b with
    | error e => rw [hc] at h; cases h
    | ok cfg =>
      rw [hc] at h
      cases hl : l.mapM fun c => (unmarshal c.2).map fun config => (c.1, config) with
      | error e => rw [hl] at h; cases h
      | ok ws =>
        rw [hl] at h
        cases h
        obtain ⟨hk, hall, hlk⟩ := ih hl
        refine ⟨by simp [hk], List.forall_mem_cons.mpr ⟨⟨cfg, hc⟩, hall⟩, fun k => ?_⟩
        simp only [List.lookup_cons, hlk]
        split <;> simp [hc, Except.toOption]

theorem lookup_eq_some_iff_mem {l : List (String × V)} (hn : (l.map Prod.fst).Nodup)
    {k : String} {b : V} : l.lookup k = some b ↔ (k, b) ∈ l := by
  induction l with
  | nil => simp
  | cons c l ih =>
    obtain ⟨a, v⟩ := c
    simp only [List.map_cons, List.nodup_cons] at hn
    simp only [List.lookup_cons, List.mem_cons, Prod.mk.injEq]
    by_cases hk : k = a
    · subst hk
      have : (k, b) ∉ l := fun hm => hn.1 (List.mem_map_of_mem Prod.fst hm)
      simp [this, eq_comm]
    · have hb : (k == a) = false := by simpa using hk
      simp [hb, hk, ih hn.2]

theorem lookup_perm {l₁ l₂ : List (String × V)} (hp : l₁.Perm l₂)
    (hn : (l₁.map Prod.fst).Nodup) (k : String) : l₁.lookup k = l₂.lookup k :=
  Option.ext fun b => by
    rw [Option.mem_def, Option.mem_def, lookup_eq_some_iff_mem hn, lookup_eq_some_iff_mem ((hp.map Prod.fst).nodup_iff.mp hn),
      hp.mem_iff]

theorem value_foldl_withValue (l : List (String × V)) (ctx : Context V) (k : String) :
    value (l.foldl (fun ctx c => withValue ctx c.1 c.2) ctx) k =
      (l.reverse.lookup k).or (value ctx k) := by
  induction l generalizing ctx with
  | nil => simp
  | cons c l ih =>
    obtain ⟨a, v⟩ := c
    rw [List.foldl_cons, ih, List.reverse_cons, List.lookup_append, Option.or_assoc]
    simp only [value, withValue, List.lookup_cons, List.lookup_nil]
    split <;> rfl

end Lookup

theorem withParsed_parseWith_stores (unmarshal : Bytes → V → Except GoError V)
    {order₁ order₂ : List (String × V) → List (String × V)} (h₁ : ∀ l, (order₁ l).Perm l)
    (h₂ : ∀ l, (order₂ l).Perm l) {creators : List (String × V)}
    (hkeys : (creators.map Prod.fst).Nodup) (ctx : Context V) (data : Bytes) :
    let r := withParsed (parseWith unmarshal (order₁ creators) data) order₂ ctx
    (r.2 = none ↔ ∀ c ∈ creators, ∃ cfg, unmarshal data c.2 = .ok cfg) ∧
    (∀ err, r.2 = some err → r.1 = ctx ∧ ∃ c ∈ creators, unmarshal data c.2 = .error err) ∧
    (r.2 = none → ∀ name, fromContext r.1 name =
      ((creators.lookup (name ++ "_CONFIG")).bind fun d => (unmarshal data d).toOption).or
        (fromContext ctx name)) := by
  intro r
  have hkeys₁ := ((h₁ creators).map Prod.fst).nodup_iff.mpr hkeys
  have hparse := parseWith_eq unmarshal (order₁ creators) data
  cases hm : (order₁ creators).mapM fun c => (unmarshal data c.2).map fun config => (c.1, config)
    with
  | error e =>
    have hr : r = (ctx, some e) := by simp only [r, hparse, hm, withParsed]
    rw [hr]
    obtain ⟨c, hc, hF⟩ := mapM_error hm
    have hdec : unmarshal data c.2 = .error e := by
      cases h : unmarshal data c.2 <;> rw [h] at hF <;> cases hF; rfl
    refine ⟨⟨(nomatch ·), fun hall => ?_⟩, fun err herr => ?_, (nomatch ·)⟩
    · obtain ⟨cfg, hcfg⟩ := hall c ((h₁ creators).mem_iff.mp hc)
      rw [hcfg] at hdec; cases hdec
    · cases herr
      exact ⟨rfl, c, (h₁ creators).mem_iff.mp hc, hdec⟩
  | ok vs =>
    have hr : r = ((order₂ vs).foldl (fun ctx c => withValue ctx c.1 c.2) ctx, none) := by
      simp only [r, hparse, hm, withParsed]
    rw [hr]
    obtain ⟨hk, hall, hlk⟩ := mapM_decoded hm
    refine ⟨⟨fun _ c hc => hall c ((h₁ creators).mem_iff.mpr hc), fun _ => rfl⟩,
      fun _ h => (nomatch h), fun _ name => ?_⟩
    have hvs : (vs.map Prod.fst).Nodup := hk ▸ hkeys₁
    have hrev : (order₂ vs).reverse.Perm vs := (List.reverse_perm _).trans (h₂ vs)
    rw [fromContext, value_foldl_withValue, lookup_perm hrev ((hrev.map Prod.fst).nodup_iff.mpr hvs),
      hlk, lookup_perm (h₁ creators) hkeys₁]
    rfl

def lengthCodec (data : Bytes) (default : Nat) : Except GoError Nat :=
  if data = [] then .error (.common "empty") else .ok (default + data.length)

def twoCreators : List (String × Nat) := registerConfigCreator (registerConfigCreator [] "TLS" 1) "MUX" 2

/-- `WithJSONConfig` in every order of both loops. -/
theorem withJSONConfig_stores (codecs : Codecs V)
    {order₁ order₂ : List (String × V) → List (String × V)} (h₁ : ∀ l, (order₁ l).Perm l)
    (h₂ : ∀ l, (order₂ l).Perm l) {creators : List (String × V)}
    (hkeys : (creators.map Prod.fst).Nodup) (ctx : Context V) (data : Bytes) :
    let r := withJSONConfig codecs order₁ order₂ creators ctx data
    (r.2 = none ↔ ∀ c ∈ creators, ∃ cfg, codecs.json data c.2 = .ok cfg) ∧
    (∀ err, r.2 = some err → r.1 = ctx ∧ ∃ c ∈ creators, codecs.json data c.2 = .error err) ∧
    (r.2 = none → ∀ name, fromContext r.1 name =
      ((creators.lookup (name ++ "_CONFIG")).bind fun d => (codecs.json data d).toOption).or
        (fromContext ctx name)) :=
  withParsed_parseWith_stores codecs.json h₁ h₂ hkeys ctx data

theorem withJSONConfig_stores_two :
    withJSONConfig ⟨lengthCodec, lengthCodec⟩ id id twoCreators [] [7, 7] =
        ([("MUX_CONFIG", 4), ("TLS_CONFIG", 3)], none) ∧
      (twoCreators.map Prod.fst).Nodup ∧
      let r := withJSONConfig ⟨lengthCodec, lengthCodec⟩ id id twoCreators [] [7, 7]
      (r.2 = none ↔ ∀ c ∈ twoCreators, ∃ cfg, lengthCodec [7, 7] c.2 = .ok cfg) ∧
      (∀ err, r.2 = some err → r.1 = [] ∧ ∃ c ∈ twoCreators, lengthCodec [7, 7] c.2 = .error err) ∧
      (r.2 = none → ∀ name, fromContext r.1 name =
        ((twoCreators.lookup (name ++ "_CONFIG")).bind fun d => (lengthCodec [7, 7] d).toOption).or
          (fromContext [] name)) :=
  ⟨rfl, by decide, withJSONConfig_stores ⟨lengthCodec, lengthCodec⟩ (fun l => .refl l)
    (fun l => .refl l) (by decide) [] [7, 7]⟩

/-- `WithYAMLConfig` in every order of both loops. -/
theorem withYAMLConfig_stores (codecs : Codecs V)
    {order₁ order₂ : List (String × V) → List (String × V)} (h₁ : ∀ l, (order₁ l).Perm l)
    (h₂ : ∀ l, (order₂ l).Perm l) {creators : List (String × V)}
    (hkeys : (creators.map Prod.fst).Nodup) (ctx : Context V) (data : Bytes) :
    let r := withYAMLConfig codecs order₁ order₂ creators ctx data
    (r.2 = none ↔ ∀ c ∈ creators, ∃ cfg, codecs.yaml data c.2 = .ok cfg) ∧
    (∀ err, r.2 = some err → r.1 = ctx ∧ ∃ c ∈ creators, codecs.yaml data c.2 = .error err) ∧
    (r.2 = none → ∀ name, fromContext r.1 name =
      ((creators.lookup (name ++ "_CONFIG")).bind fun d => (codecs.yaml data d).toOption).or
        (fromContext ctx name)) :=
  withParsed_parseWith_stores codecs.yaml h₁ h₂ hkeys ctx data

theorem withYAMLConfig_stores_empty :
    withYAMLConfig ⟨lengthCodec, lengthCodec⟩ id List.reverse twoCreators [] [] =
        ([], some (.common "empty")) ∧
      (twoCreators.map Prod.fst).Nodup ∧
      let r := withYAMLConfig ⟨lengthCodec, lengthCodec⟩ id List.reverse twoCreators [] []
      (r.2 = none ↔ ∀ c ∈ twoCreators, ∃ cfg, lengthCodec [] c.2 = .ok cfg) ∧
      (∀ err, r.2 = some err → r.1 = [] ∧ ∃ c ∈ twoCreators, lengthCodec [] c.2 = .error err) ∧
      (r.2 = none → ∀ name, fromContext r.1 name =
        ((twoCreators.lookup (name ++ "_CONFIG")).bind fun d => (lengthCodec [] d).toOption).or
          (fromContext [] name)) :=
  ⟨rfl, by decide, withYAMLConfig_stores ⟨lengthCodec, lengthCodec⟩ (fun l => .refl l)
    List.reverse_perm (by decide) [] []⟩

end TrojanGo.Config
