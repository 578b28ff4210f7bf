import TrojanGo.Stream

/-!
# Loading the key pair

`loadKeyPair` decodes, decrypts and parses the server's key pair, the x509, pem and tls calls
being a parameter (`X509`). The test after `DecryptPEMBlock` is `err == nil`, so a key that
decrypts makes the call fail (`loadKeyPair_decrypted_fails`); every pair it returns has its leaf
set (`loadKeyPair_leaf`).
-/

set_option autoImplicit false

namespace TrojanGo.KeyPair
open TrojanGo.Stream

/-- The fields of `x509.Certificate` the TLS server reads: `Subject.CommonName` and
`DNSNames`. -/
structure Leaf where
  commonName : Bytes
  dnsNames : List Bytes
  deriving DecidableEq, Repr

/-- `tls.Certificate`: the DER chain, the private key, and the parsed leaf (`nil` until
set). -/
structure Certificate where
  certificate : List Bytes
  privateKey : Bytes
  leaf : Option Leaf
  deriving DecidableEq, Repr

/-- A `pem.Block`: its type, its headers (which say how it is encrypted) and its DER bytes. -/
structure Block where
  type : String
  headers : List (String × String)
  bytes : Bytes
  deriving DecidableEq, Repr

/-- The library calls of `loadKeyPair`: `pem.Decode` (the first block), `x509.DecryptPEMBlock`
(the key and the error, as Go returns them), `tls.X509KeyPair` on PEM certificate and key
bytes, and `x509.ParseCertificate`. A pair `X509KeyPair` returns holds a certificate. -/
structure X509 where
  pemDecode : Bytes → Option Block
  decryptPEMBlock : Block → Bytes → Bytes × Option GoError
  x509KeyPair : Bytes → Bytes → Except GoError Certificate
  parseCertificate : Bytes → Except GoError Leaf
  x509KeyPair_chain : ∀ c k kp, x509KeyPair c k = .ok kp → kp.certificate ≠ []

variable (lib : X509) (readFile : String → Bytes × Option GoError)

/-- `tls.LoadX509KeyPair(certFile, keyFile)`: both files read, then `X509KeyPair`.
`readFile` is `ioutil.ReadFile`, with Go's two results. -/
def loadX509KeyPair (certFile keyFile : String) : Except GoError Certificate :=
  match readFile certFile with
  | (_, some err) => .error err
  | (certPEMBlock, none) =>
    match readFile keyFile with
    | (_, some err) => .error err
    | (keyPEMBlock, none) => lib.x509KeyPair certPEMBlock keyPEMBlock

theorem loadX509KeyPair_chain {certFile keyFile : String} {kp : Certificate}
    (h : loadX509KeyPair lib readFile certFile keyFile = .ok kp) : kp.certificate ≠ [] := by
  unfold loadX509KeyPair at h
  split at h
  · cases h
  · split at h
    · cases h
    · exact lib.x509KeyPair_chain _ _ _ h

/-- `keyPair.Leaf, err = x509.ParseCertificate(keyPair.Certificate[0])` and its check. -/
def withLeaf (kp : Certificate) (h : kp.certificate ≠ []) : Except GoError Certificate :=
  match lib.parseCertificate (kp.certificate.head h) with
  | .error err => .error (newErrorBase "failed to parse leaf certificate" (some err))
  | .ok leaf => .ok { kp with leaf := some leaf }

/-- `loadKeyPair(keyPath, certPath, password)`; the password is `[]byte(password)`. On the
password path the error of reading the certificate file is only kept for the message. -/
def loadKeyPair (keyPath certPath : String) (password : Bytes) : Except GoError Certificate :=
  if password ≠ [] then
    match readFile keyPath with
    | (_, some err) => .error (newErrorBase "failed to load key file" (some err))
    | (keyFile, none) =>
      match lib.pemDecode keyFile with
      | none => .error (newErrorBase "failed to decode key file" none)
      | some keyBlock =>
        match lib.decryptPEMBlock keyBlock password with
        | (_, none) => .error (newErrorBase "failed to decrypt key" none)
        | (decryptedKey, some _) =>
          match lib.pemDecode (readFile certPath).1 with
          | none => .error (newErrorBase "failed to decode cert file" (readFile certPath).2)
          | some certBlock =>
            match h : lib.x509KeyPair certBlock.bytes decryptedKey with
            | .error err => .error err
            | .ok keyPair => withLeaf lib keyPair (lib.x509KeyPair_chain _ _ _ h)
  else
    match h : loadX509KeyPair lib readFile certPath keyPath with
    | .error err => .error (newErrorBase "failed to load key pair" (some err))
    | .ok keyPair => withLeaf lib keyPair (loadX509KeyPair_chain lib readFile h)

theorem withLeaf_leaf {kp kp' : Certificate} {h : kp.certificate ≠ []}
    (hw : withLeaf lib kp h = .ok kp') : kp'.leaf.isSome := by
  unfold withLeaf at hw
  split at hw
  · cases hw
  · cases hw
    rfl

/-- Every pair `loadKeyPair` returns has its leaf parsed. -/
theorem loadKeyPair_leaf {keyPath certPath : String} {password : Bytes} {kp : Certificate}
    (h : loadKeyPair lib readFile keyPath certPath password = .ok kp) : kp.leaf.isSome := by
  unfold loadKeyPair at h
  split_ifs at h
  · repeat' split at h
    all_goals first | cases h | exact withLeaf_leaf lib h
  · split at h
    · cases h
    · exact withLeaf_leaf lib h

/-- Whenever the key file's block decrypts under the password, the password path fails with
"failed to decrypt key", whatever the files and the library. -/
theorem loadKeyPair_decrypted_fails (keyPath certPath : String) {password keyFile key : Bytes}
    {keyBlock : Block} (hp : password ≠ []) (hk : readFile keyPath = (keyFile, none))
    (hb : lib.pemDecode keyFile = some keyBlock)
    (hd : lib.decryptPEMBlock keyBlock password = (key, none)) :
    loadKeyPair lib readFile keyPath certPath password = .error (.common "failed to decrypt key") := by
  simp only [loadKeyPair, if_pos hp, hk, hb, hd]
  rfl

def demoX509 : X509 where
  pemDecode
    | 1 :: der => some ⟨"PRIVATE KEY", [], der⟩
    | 2 :: der => some ⟨"PRIVATE KEY", [("DEK-Info", "pw")], der⟩
    | 3 :: der => some ⟨"CERTIFICATE", [], der⟩
    | _ => none
  decryptPEMBlock block password :=
    match block.headers with
    | [("DEK-Info", key)] =>
      if ascii key = password then (block.bytes, none)
      else ([], some (.common "x509: decryption password incorrect"))
    | _ => ([], some (.common "x509: no DEK-Info header in block"))
  x509KeyPair certPEM keyPEM :=
    match certPEM, keyPEM with
    | 3 :: cert, 1 :: key => .ok ⟨[cert], key, none⟩
    | _, _ => .error (.common "tls: failed to find any PEM data")
  parseCertificate der := .ok ⟨der, []⟩
  x509KeyPair_chain c k kp := by
    dsimp only
    split
    · rintro ⟨⟩
      simp
    · nofun

def demoFiles (path : String) : Bytes × Option GoError :=
  if path = "key.pem" then ([1, 7, 7], none)
  else if path = "key.enc" then ([2, 7, 7], none)
  else if path = "cert.pem" then ([3, 5], none)
  else ([], some (.common ("open " ++ path ++ ": no such file or directory")))

/-- The key encrypted under `pw` decrypts to the plain key, and the plain path loads the pair,
but the password path fails. -/
theorem loadKeyPair_rejects_encrypted_key :
    demoX509.decryptPEMBlock ⟨"PRIVATE KEY", [("DEK-Info", "pw")], [7, 7]⟩ (ascii "pw") =
        ([7, 7], none) ∧
      loadKeyPair demoX509 demoFiles "key.enc" "cert.pem" (ascii "pw") =
        .error (.common "failed to decrypt key") ∧
      loadKeyPair demoX509 demoFiles "key.pem" "cert.pem" [] = .ok ⟨[[5]], [7, 7], some ⟨[5], []⟩⟩ :=
  ⟨rfl, rfl, rfl⟩

end TrojanGo.KeyPair
