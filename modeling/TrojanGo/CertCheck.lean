import TrojanGo.KeyPair
import TrojanGo.Tls

/-!
# Certificate reload and the certificate callback

`checkKeyPairLoop` re-reads the key and certificate files each pass and stores a reloaded pair
under the lock; the `GetCertificate` callback reads `s.keyPair[0].Leaf`. Every state the loop
passes through holds one pair with its leaf set, so the callback never panics
(`getCertificate_never_panics`), but a failed read skips the `select`, so an unreadable key keeps
the loop spinning after the context is done (`checkKeyPairLoop_spins`).
-/

set_option autoImplicit false

namespace TrojanGo.CertCheck
open TrojanGo.Stream TrojanGo.KeyPair

/-! ### The callback -/

/-- Go's `s[lo:]` on a string: out of range it panics (`none`). -/
def sliceFrom (s : Bytes) (lo : Nat) : Option Bytes :=
  if lo ≤ s.length then some (s.drop lo) else none

/-- Go's `s[:hi]` with an `int` bound. -/
def sliceTo (s : Bytes) (hi : Int) : Option Bytes :=
  if 0 ≤ hi ∧ hi ≤ s.length then some (s.take hi.toNat) else none

/-- `isDomainNameMatched` with Go's bounds checks on `pattern[2:]` and
`domainName[:domainPrefixLen]`, and `&&` stopping at the first false; `none` is a panic. -/
def isDomainNameMatchedChecked (pattern domainName : Bytes) : Option Bool :=
  if Tls.hasPrefix pattern (ascii "*.") then do
    let suffix ← sliceFrom pattern 2
    let domainPrefixLen : Int := domainName.length - suffix.length - 1
    if Tls.hasSuffix domainName suffix && decide (domainPrefixLen > 0) then do
      let pre ← sliceTo domainName domainPrefixLen
      pure !(pre.contains Tls.dot)
    else pure false
  else pure (pattern == domainName)

theorem isDomainNameMatchedChecked_eq (pattern domainName : Bytes) :
    isDomainNameMatchedChecked pattern domainName = some (Tls.isDomainNameMatched pattern domainName) := by
  unfold isDomainNameMatchedChecked Tls.isDomainNameMatched
  split_ifs with hp
  · have h2 : 2 ≤ pattern.length := by
      simp only [Tls.hasPrefix, Bool.and_eq_true, decide_eq_true_eq] at hp
      exact hp.1
    rw [show sliceFrom pattern 2 = some (pattern.drop 2) from if_pos h2]
    dsimp only
    generalize pattern.drop 2 = suffix
    simp only [Option.pure_def, Option.bind_eq_bind, Option.some_bind]
    split
    · rename_i hs
      simp only [Bool.and_eq_true, decide_eq_true_eq] at hs
      rw [show sliceTo domainName _ = _ from if_pos ⟨by omega, by omega⟩]
      simp [hs.1, hs.2]
    · simp_all
  · rfl

/-- The fields of `tls.Server` that `GetCertificate` reads and `checkKeyPairLoop` writes. -/
structure Server where
  keyPair : List Certificate
  sni : Bytes
  verifySNI : Bool

/-- The `for _, name := range dnsNames` loop: `true` at the first name that matches. -/
def matchDNSNames (serverName : Bytes) (matched : Bool) : List Bytes → Option Bool
  | [] => some matched
  | name :: names => do
    if ← isDomainNameMatchedChecked name serverName then pure true
    else matchDNSNames serverName matched names

/-- The `GetCertificate` callback of `acceptLoop` for a ClientHello's `ServerName`: the pair,
the mismatch error, or a panic (`none`) on `s.keyPair[0]` out of range or a `nil` leaf. -/
def getCertificate (s : Server) (serverName : Bytes) : Option (Except GoError Certificate) := do
  let kp ← s.keyPair.head?
  let leaf ← kp.leaf
  let sni := if s.sni ≠ [] then s.sni else leaf.commonName
  let matched ← isDomainNameMatchedChecked sni serverName
  let matched ← matchDNSNames serverName matched leaf.dnsNames
  if s.verifySNI && !matched then
    pure (.error (.common ("sni mismatched: " ++ goString serverName ++ ", expected: " ++
      goString s.sni)))
  else pure (.ok kp)

theorem matchDNSNames_eq (serverName : Bytes) (matched : Bool) (names : List Bytes) :
    matchDNSNames serverName matched names =
      some (names.any (Tls.isDomainNameMatched · serverName) || matched) := by
  induction names with
  | nil => rfl
  | cons name names ih =>
    simp only [matchDNSNames, isDomainNameMatchedChecked_eq, Option.bind_eq_bind, Option.some_bind,
      ih, List.any_cons]
    split <;> simp_all

theorem getCertificate_isSome {s : Server} {kp : Certificate} (hk : s.keyPair.head? = some kp)
    (hl : kp.leaf.isSome) (serverName : Bytes) : (getCertificate s serverName).isSome := by
  obtain ⟨leaf, hleaf⟩ := Option.isSome_iff_exists.mp hl
  simp only [getCertificate, hk, hleaf, isDomainNameMatchedChecked_eq, matchDNSNames_eq,
    Option.bind_eq_bind, Option.some_bind]
  split_ifs <;> rfl

/-! ### Creation and reload -/

structure Config where
  keyPath : String
  certPath : String
  keyPassword : Bytes
  sni : Bytes
  verifyHostName : Bool

variable (lib : X509) (readFile : String → Bytes × Option GoError)

/-- The key pair part of `tls.NewServer`: the pair `loadKeyPair` returns, as a one-element
slice, or the error (which drops the cause). -/
def newServer (cfg : Config) : Except GoError Server :=
  match loadKeyPair lib readFile cfg.keyPath cfg.certPath cfg.keyPassword with
  | .error _ => .error (.common "tls failed to load key pair")
  | .ok keyPair => .ok ⟨[keyPair], cfg.sni, cfg.verifyHostName⟩

structure Round where
  keyRead : Bytes × Option GoError
  certRead : Bytes × Option GoError
  files : String → Bytes × Option GoError
  done : Bool

inductive Event where
  | readKey
  | readCert
  | load
  | store (keyPair : Certificate)
  | select
  | exit
  deriving DecidableEq, Repr

/-- One pass of the `for` loop of `checkKeyPairLoop` from `lastKeyBytes, lastCertBytes = last`:
its events, and the `last` the next pass starts from, or `none` once it returns. A `continue`
before the `select` starts the next pass at once. -/
def pass (keyPath certPath : String) (password : Bytes) (last : Bytes × Bytes) (r : Round) :
    List Event × Option (Bytes × Bytes) :=
  match r.keyRead with
  | (_, some _) => ([.readKey], some last)
  | (keyBytes, none) =>
    match r.certRead with
    | (_, some _) => ([.readKey, .readCert], some last)
    | (certBytes, none) =>
      if keyBytes ≠ last.1 ∨ last.2 ≠ certBytes then
        match loadKeyPair lib r.files keyPath certPath password with
        | .error _ => ([.readKey, .readCert, .load], some last)
        | .ok keyPair =>
          if r.done then ([.readKey, .readCert, .load, .store keyPair, .select, .exit], none)
          else ([.readKey, .readCert, .load, .store keyPair, .select], some (keyBytes, certBytes))
      else if r.done then ([.readKey, .readCert, .select, .exit], none)
      else ([.readKey, .readCert, .select], some last)

/-- `checkKeyPairLoop(checkRate, keyPath, certPath, password)` over its passes: its events up
to its return. -/
def checkKeyPairLoop (keyPath certPath : String) (password : Bytes) (last : Bytes × Bytes) :
    List Round → List Event
  | [] => []
  | r :: rs =>
    (pass lib keyPath certPath password last r).1 ++
      match (pass lib keyPath certPath password last r).2 with
      | none => []
      | some last' => checkKeyPairLoop keyPath certPath password last' rs

def states (s : Server) (events : List Event) : List Server :=
  s :: events.filterMap fun
    | .store keyPair => some { s with keyPair := [keyPair] }
    | _ => none

theorem pass_store {keyPath certPath : String} {password : Bytes} {last : Bytes × Bytes}
    {r : Round} {kp : Certificate} (h : .store kp ∈ (pass lib keyPath certPath password last r).1) :
    loadKeyPair lib r.files keyPath certPath password = .ok kp := by
  unfold pass at h
  repeat' split at h
  all_goals simp_all

theorem store_loaded {keyPath certPath : String} {password : Bytes} {kp : Certificate}
    {last : Bytes × Bytes} {rounds : List Round}
    (h : .store kp ∈ checkKeyPairLoop lib keyPath certPath password last rounds) :
    ∃ files, loadKeyPair lib files keyPath certPath password = .ok kp := by
  induction rounds generalizing last with
  | nil => cases h
  | cons r rs ih =>
    rcases List.mem_append.mp h with h | h
    · exact ⟨r.files, pass_store lib h⟩
    · split at h
      · cases h
      · exact ih h

theorem newServer_ok {cfg : Config} {s : Server} (hs : newServer lib readFile cfg = .ok s) :
    ∃ kp, loadKeyPair lib readFile cfg.keyPath cfg.certPath cfg.keyPassword = .ok kp ∧
      s = ⟨[kp], cfg.sni, cfg.verifyHostName⟩ := by
  unfold newServer at hs
  split at hs
  · cases hs
  · cases hs
    exact ⟨_, ‹_›, rfl⟩

theorem mem_states {s st : Server} {events : List Event} (h : st ∈ states s events) :
    st = s ∨ ∃ kp, .store kp ∈ events ∧ st = { s with keyPair := [kp] } := by
  simp only [states, List.mem_cons, List.mem_filterMap] at h
  rcases h with rfl | ⟨e, he, hst⟩
  · exact .inl rfl
  · cases e <;> cases hst
    exact .inr ⟨_, he, rfl⟩

/-- Every state a created server passes through while the loop runs holds one pair that a
successful `loadKeyPair` returned, with its leaf set; so for every server name a client sends,
`GetCertificate` returns without an out-of-range index or a `nil` dereference. -/
theorem getCertificate_never_panics (cfg : Config) {s : Server}
    (hs : newServer lib readFile cfg = .ok s) (rounds : List Round) :
    ∀ st ∈ states s (checkKeyPairLoop lib cfg.keyPath cfg.certPath cfg.keyPassword ([], []) rounds),
      (∃ kp files, loadKeyPair lib files cfg.keyPath cfg.certPath cfg.keyPassword = .ok kp ∧
        st.keyPair = [kp] ∧ kp.leaf.isSome) ∧
      ∀ serverName, (getCertificate st serverName).isSome := by
  intro st hst
  obtain ⟨kp, files, hf, hk⟩ : ∃ kp files, loadKeyPair lib files cfg.keyPath cfg.certPath
      cfg.keyPassword = .ok kp ∧ st.keyPair = [kp] := by
    obtain ⟨kp₀, h₀, rfl⟩ := newServer_ok lib readFile hs
    rcases mem_states hst with rfl | ⟨kp, he, rfl⟩
    · exact ⟨kp₀, readFile, h₀, rfl⟩
    · obtain ⟨files, hf⟩ := store_loaded lib he
      exact ⟨kp, files, hf, rfl⟩
  have hl := loadKeyPair_leaf lib files hf
  exact ⟨⟨kp, files, hf, hk, hl⟩, getCertificate_isSome (by rw [hk]; rfl) hl⟩

theorem getCertificate_never_panics_demo :
    newServer demoX509 demoFiles ⟨"key.pem", "cert.pem", [], [], true⟩ =
        .ok ⟨[⟨[[5]], [7, 7], some ⟨[5], []⟩⟩], [], true⟩ ∧
      ∀ st ∈ states ⟨[⟨[[5]], [7, 7], some ⟨[5], []⟩⟩], [], true⟩
          (checkKeyPairLoop demoX509 "key.pem" "cert.pem" [] ([], [])
            [⟨demoFiles "key.pem", demoFiles "cert.pem", demoFiles, true⟩]),
        ∀ serverName, (getCertificate st serverName).isSome :=
  ⟨rfl, fun st hst => (getCertificate_never_panics demoX509 demoFiles
    ⟨"key.pem", "cert.pem", [], [], true⟩ rfl _ st hst).2⟩

/-- When every key read fails, each pass is one read of `keyPath`: the loop reads it pass after
pass without blocking in its `select` and without returning, whether its context is done or
not. -/
theorem checkKeyPairLoop_spins (keyPath certPath : String) (password : Bytes)
    (last : Bytes × Bytes) (rounds : List Round) (h : ∀ r ∈ rounds, r.keyRead.2.isSome) :
    checkKeyPairLoop lib keyPath certPath password last rounds = rounds.map fun _ => .readKey := by
  induction rounds with
  | nil => rfl
  | cons r rs ih =>
    obtain ⟨e, he⟩ := Option.isSome_iff_exists.mp (h r (List.mem_cons_self _ _))
    have hp : pass lib keyPath certPath password last r = ([.readKey], some last) := by
      rw [pass, show r.keyRead = (r.keyRead.1, some e) by rw [← he]]
    rw [checkKeyPairLoop, hp]
    exact congrArg (Event.readKey :: ·) (ih fun r' hr' => h r' (List.mem_cons_of_mem _ hr'))

/-- A key path with no file, with the context done from the first pass on: three passes read the key
three times, and the loop neither waits in its `select` nor returns. -/
theorem checkKeyPairLoop_unreadable_key :
    checkKeyPairLoop demoX509 "missing.pem" "cert.pem" [] ([], [])
        (List.replicate 3 ⟨demoFiles "missing.pem", demoFiles "cert.pem", demoFiles, true⟩) =
      [.readKey, .readKey, .readKey] :=
  rfl

end TrojanGo.CertCheck
