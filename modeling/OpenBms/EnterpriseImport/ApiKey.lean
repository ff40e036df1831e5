/-
# `OpenBms.EnterpriseImport.ApiKey` — the source's key, ciphered between two processes

Source:

| | |
| :-- | :-- |
| the API ciphers the key | `apps/msgops-api/src/utils/api-key-encryption.util.ts`, `encryptApiKey` |
| the importer deciphers it | `apps/enterprise-import/src/utils/api-key-encryption.util.ts`, `decryptApiKey` |

The two files have the same text.  The job carries `base64(iv | tag | ciphertext)`; each
process keeps the key it first read from its environment.  The cipher (AES-256-GCM) and the
reading of UTF-8 are Node's, a `Library` here.

**Proved here.**

    a process keeps the key of its environment (`held_after`)
    what is deciphered was sealed under that key (`decryptApiKey_iff`)
    what one process ciphers the other deciphers (`decrypt_encrypt`)
-/
import OpenBms.Lib.Base64

namespace OpenBms.EnterpriseImport.ApiKey

abbrev Bytes := List UInt8

/-- `Buffer.from(text, 'utf8')`. -/
def utf8 (text : String) : Bytes := text.toUTF8.data.toList

/-- `Buffer.from(text, 'base64')`, which throws on no string. -/
def ofBase64 (text : String) : Bytes := (Base64.decode text.toList).map UInt8.ofNat

/-- `buf.toString('base64')`. -/
def toBase64 (buf : Bytes) : String := String.ofList (Base64.encode (buf.map UInt8.toNat))

/-- `encrypt key iv plain` is the ciphertext and the authentication tag; `decrypt key iv tag
ciphertext` is nothing where `decipher.final()` throws; `toString` is `toString('utf8')`. -/
structure Library where
  encrypt : Bytes → Bytes → Bytes → Bytes × Bytes
  decrypt : Bytes → Bytes → Bytes → Bytes → Option Bytes
  toString : Bytes → String

/-- GCM ciphers a stream, its tag has sixteen bytes, and it deciphers what bears its tag. -/
structure Library.Lawful (L : Library) : Prop where
  length_ciphertext : ∀ {key iv : Bytes}, key.length = 32 → iv.length = 12 →
    ∀ plain, (L.encrypt key iv plain).1.length = plain.length
  length_tag : ∀ {key iv : Bytes}, key.length = 32 → iv.length = 12 →
    ∀ plain, (L.encrypt key iv plain).2.length = 16
  decrypt_eq_some : ∀ {key iv : Bytes}, key.length = 32 → iv.length = 12 →
    ∀ tag ciphertext plain,
      L.decrypt key iv tag ciphertext = some plain ↔ L.encrypt key iv plain = (ciphertext, tag)
  toString_utf8 : ∀ text, L.toString (utf8 text) = text

/-! ## The two functions -/

/-- `loadKey`, without its cache. -/
def readKey (raw : Option String) : Except String Bytes :=
  if raw.getD "" = "" then
    .error ("ENTERPRISE_IMPORT_ENCRYPTION_KEY not set — gere com `openssl rand -base64 32` e " ++
      "adicione ao .env")
  else
    let key := ofBase64 (raw.getD "")
    if key.length ≠ 32 then
      .error (s!"ENTERPRISE_IMPORT_ENCRYPTION_KEY must decode to 32 bytes (got {key.length}). " ++
        "Regenere com `openssl rand -base64 32`")
    else .ok key

/-- The key, and `cachedKey` afterwards. -/
def loadKey (raw : Option String) : Option Bytes → Except String Bytes × Option Bytes
  | some key => (.ok key, some key)
  | none => (readKey raw, (readKey raw).toOption)

/-- `Buffer.concat([iv, authTag, ciphertext])`. -/
def envelope (L : Library) (key iv plain : Bytes) : Bytes :=
  iv ++ (L.encrypt key iv plain).2 ++ (L.encrypt key iv plain).1

/-- `iv` is what `randomBytes` gave. -/
def encryptApiKey (L : Library) (raw : Option String) (iv : Bytes) (plain : String)
    (cachedKey : Option Bytes) : Except String String × Option Bytes :=
  if plain = "" then (.error "encryptApiKey: plain must be a non-empty string", cachedKey)
  else
    let (key, kept) := loadKey raw cachedKey
    (key.map fun key => toBase64 (envelope L key iv (utf8 plain)), kept)

/-- `decryptApiKey` after `loadKey`. -/
def decipher (L : Library) (payload : String) (key : Bytes) : Except String String :=
  let buf := ofBase64 payload
  if buf.length ≤ 28 then .error "decryptApiKey: payload too short (corrupt or wrong key)"
  else
    match L.decrypt key (buf.take 12) ((buf.drop 12).take 16) (buf.drop 28) with
    | none => .error "Unsupported state or unable to authenticate data"
    | some plaintext => .ok (L.toString plaintext)

def decryptApiKey (L : Library) (raw : Option String) (payload : String)
    (cachedKey : Option Bytes) : Except String String × Option Bytes :=
  if payload = "" then (.error "decryptApiKey: payload must be a non-empty string", cachedKey)
  else
    let (key, kept) := loadKey raw cachedKey
    (key.bind (decipher L payload), kept)

/-! ## The life of a process -/

inductive Call
  | encrypt (iv : Bytes) (plain : String)
  | decrypt (payload : String)

def step (L : Library) (raw : Option String) (cachedKey : Option Bytes) : Call → Option Bytes
  | .encrypt iv plain => (encryptApiKey L raw iv plain cachedKey).2
  | .decrypt payload => (decryptApiKey L raw payload cachedKey).2

/-- `cachedKey` after calls of a process that started without it. -/
def after (L : Library) (raw : Option String) (calls : List Call) : Option Bytes :=
  calls.foldl (step L raw) none

/-- A key that is kept is the one the environment gives. -/
def Held (raw : Option String) (cachedKey : Option Bytes) : Prop :=
  ∀ key, cachedKey = some key → readKey raw = .ok key

section

variable {L : Library} {raw : Option String} {cachedKey : Option Bytes}

theorem loadKey_of_held (h : Held raw cachedKey) :
    (loadKey raw cachedKey).1 = readKey raw ∧ Held raw (loadKey raw cachedKey).2 := by
  cases cachedKey with
  | some key => exact ⟨(h key rfl).symm, h⟩
  | none =>
      refine ⟨rfl, fun key hkey => ?_⟩
      rw [loadKey] at hkey
      cases hread : readKey raw with
      | error e =>
          rw [hread] at hkey
          cases hkey
      | ok key' =>
          rw [hread] at hkey
          cases hkey
          rfl

theorem held_step (h : Held raw cachedKey) (c : Call) : Held raw (step L raw cachedKey c) := by
  cases c with
  | encrypt iv plain =>
      rw [step, encryptApiKey]
      split
      · exact h
      · exact (loadKey_of_held h).2
  | decrypt payload =>
      rw [step, decryptApiKey]
      split
      · exact h
      · exact (loadKey_of_held h).2

theorem held_after (L : Library) (raw : Option String) (calls : List Call) :
    Held raw (after L raw calls) := by
  induction calls using List.reverseRecOn with
  | nil =>
      intro key hkey
      cases hkey
  | append_singleton calls c ih =>
      rw [after, List.foldl_append]
      exact held_step ih c

theorem length_of_readKey {key : Bytes} (h : readKey raw = .ok key) : key.length = 32 := by
  rw [readKey] at h
  split at h
  · cases h
  · dsimp only at h
    split at h
    · cases h
    · rename_i hlength
      cases h
      exact not_not.mp hlength

end

/-! ## Round trips -/

theorem ofBase64_toBase64 (buf : Bytes) : ofBase64 (toBase64 buf) = buf := by
  have hlt : ∀ b ∈ buf.map UInt8.toNat, b < 256 := by
    intro b hb
    obtain ⟨byte, -, rfl⟩ := List.mem_map.mp hb
    exact byte.toNat_lt
  rw [ofBase64, toBase64, String.toList_ofList, Base64.decode_encode hlt, List.map_map]
  exact (List.map_congr_left fun byte _ => UInt8.ofNat_toNat).trans (List.map_id buf)

theorem utf8_ne_nil {text : String} (h : text ≠ "") : utf8 text ≠ [] := by
  intro hnil
  refine h (String.toByteArray_eq_empty_iff.mp ?_)
  exact ByteArray.ext (Array.toList_eq_nil_iff.mp hnil)

/-- What is deciphered under a key is what was sealed under it. -/
theorem decipher_iff {L : Library} (hL : L.Lawful) {key : Bytes} (hkey : key.length = 32)
    {payload plain : String} :
    decipher L payload key = .ok plain ↔ ∃ iv plaintext, iv.length = 12 ∧ plaintext ≠ [] ∧
      ofBase64 payload = envelope L key iv plaintext ∧ L.toString plaintext = plain := by
  rw [decipher]
  generalize ofBase64 payload = buf
  constructor
  · intro h
    split at h
    · cases h
    · rename_i hlong
      have hiv : (buf.take 12).length = 12 := by
        rw [List.length_take]
        omega
      split at h
      · cases h
      · rename_i plaintext hdecrypt
        have hencrypt := (hL.decrypt_eq_some hkey hiv _ _ _).mp hdecrypt
        have hlength := hL.length_ciphertext hkey hiv plaintext
        rw [hencrypt, List.length_drop] at hlength
        refine ⟨buf.take 12, plaintext, hiv, ?_, ?_, Except.ok.inj h⟩
        · rintro rfl
          simp only [List.length_nil] at hlength
          omega
        · rw [envelope, hencrypt, List.append_assoc]
          have htail : buf.drop 28 = (buf.drop 12).drop 16 := by rw [List.drop_drop]
          rw [htail, List.take_append_drop, List.take_append_drop]
  · rintro ⟨iv, plaintext, hiv, hplaintext, rfl, rfl⟩
    have htag := hL.length_tag hkey hiv plaintext
    have hciphertext := hL.length_ciphertext hkey hiv plaintext
    have hpos := List.length_pos_iff.mpr hplaintext
    have hshort : ¬ (envelope L key iv plaintext).length ≤ 28 := by
      rw [envelope, List.length_append, List.length_append]
      omega
    have hfirst : (envelope L key iv plaintext).take 12 = iv := by
      rw [envelope, List.append_assoc, List.take_left' hiv]
    have hsecond : ((envelope L key iv plaintext).drop 12).take 16 =
        (L.encrypt key iv plaintext).2 := by
      rw [envelope, List.append_assoc, List.drop_left' hiv, List.take_left' htag]
    have hthird : (envelope L key iv plaintext).drop 28 = (L.encrypt key iv plaintext).1 := by
      refine List.drop_left' ?_
      rw [List.length_append, hiv, htag]
    rw [if_neg hshort, hfirst, hsecond, hthird, (hL.decrypt_eq_some hkey hiv _ _ _).mpr rfl]

/-- A process deciphers a payload exactly when it is an envelope sealed, under the key of its
environment, over something; it then gives what was sealed. -/
theorem decryptApiKey_iff {L : Library} (hL : L.Lawful) (raw : Option String) (calls : List Call)
    (payload plain : String) :
    (decryptApiKey L raw payload (after L raw calls)).1 = .ok plain ↔
      ∃ key iv plaintext, readKey raw = .ok key ∧ iv.length = 12 ∧ plaintext ≠ [] ∧
        ofBase64 payload = envelope L key iv plaintext ∧ L.toString plaintext = plain := by
  rw [decryptApiKey]
  split
  · rename_i hpayload
    constructor
    · intro h
      cases h
    · rintro ⟨key, iv, plaintext, -, hiv, -, hbuf, -⟩
      rw [hpayload, envelope, List.append_assoc] at hbuf
      have hlength := congrArg List.length hbuf
      rw [List.length_append, hiv] at hlength
      have hnil : (ofBase64 "").length = 0 := by decide +kernel
      omega
  · dsimp only
    rw [(loadKey_of_held (held_after L raw calls)).1]
    cases hread : readKey raw with
    | error e =>
        constructor
        · intro h
          cases h
        · rintro ⟨key, iv, plaintext, h, -⟩
          cases h
    | ok key =>
        refine (decipher_iff hL (length_of_readKey hread)).trans ?_
        constructor
        · rintro ⟨iv, plaintext, h⟩
          exact ⟨key, iv, plaintext, rfl, h⟩
        · rintro ⟨_, iv, plaintext, h, hrest⟩
          cases h
          exact ⟨iv, plaintext, hrest⟩

/-- Whatever two processes with one environment ciphered and deciphered before, a key that the
first ciphers is deciphered by the second. -/
theorem decrypt_encrypt {L : Library} (hL : L.Lawful) {raw : Option String} {iv : Bytes}
    (hiv : iv.length = 12) {plain payload : String} {calls : List Call}
    (h : (encryptApiKey L raw iv plain (after L raw calls)).1 = .ok payload)
    (calls' : List Call) :
    (decryptApiKey L raw payload (after L raw calls')).1 = .ok plain := by
  rw [encryptApiKey] at h
  split at h
  · cases h
  · rename_i hplain
    dsimp only at h
    rw [(loadKey_of_held (held_after L raw calls)).1] at h
    cases hread : readKey raw with
    | error e =>
        rw [hread] at h
        cases h
    | ok key =>
        rw [hread] at h
        cases h
        exact (decryptApiKey_iff hL raw calls' _ plain).mpr ⟨key, iv, utf8 plain, hread, hiv,
          utf8_ne_nil hplain, ofBase64_toBase64 _, hL.toString_utf8 plain⟩

/-- The key stream of AES-256-GCM for a key and an `iv` of zeros, and its tag over `k1`. -/
def sampleLibrary : Library where
  encrypt _ _ plain := (plain.mapIdx fun i b => b ^^^ stream.getD i 0, tag)
  decrypt _ _ tag' ciphertext :=
    if tag' = tag then some (ciphertext.mapIdx fun i b => b ^^^ stream.getD i 0) else none
  toString buf := (String.fromUTF8? ⟨buf.toArray⟩).getD "\uFFFD"
where
  stream : Bytes := [206, 167, 64, 61, 77, 96, 107, 110, 7, 78, 197, 211, 186, 243, 157, 24]
  tag : Bytes := [216, 103, 148, 191, 76, 198, 50, 134, 90, 119, 181, 192, 148, 160, 39, 250]

theorem sampleLibrary_lawful : sampleLibrary.Lawful where
  length_ciphertext _ _ plain := List.length_mapIdx
  length_tag _ _ _ := rfl
  decrypt_eq_some _ _ tag ciphertext plain := by
    have htwice (l : Bytes) : (l.mapIdx fun i b => b ^^^ sampleLibrary.stream.getD i 0).mapIdx
        (fun i b => b ^^^ sampleLibrary.stream.getD i 0) = l := by
      refine List.ext_getElem (by rw [List.length_mapIdx, List.length_mapIdx]) fun i _ _ => ?_
      rw [List.getElem_mapIdx, List.getElem_mapIdx, UInt8.xor_assoc, UInt8.xor_self, UInt8.xor_zero]
    rw [sampleLibrary, Prod.mk.injEq]
    dsimp only
    split
    · rename_i htag
      rw [Option.some.injEq]
      constructor
      · rintro rfl
        exact ⟨htwice ciphertext, htag.symm⟩
      · rintro ⟨rfl, -⟩
        exact htwice plain
    · rename_i htag
      constructor
      · intro h
        cases h
      · rintro ⟨-, h⟩
        exact absurd h.symm htag
  toString_utf8 text := by
    have hread : String.fromUTF8? ⟨(utf8 text).toArray⟩ = some text := dif_pos text.isValidUTF8
    exact congrArg (Option.getD · "\uFFFD") hread

/-- Thirty-two bytes of zeros. -/
def sampleRaw : Option String := some "AAAAAAAAAAAAAAAAAAAAAAAAAAAAAAAAAAAAAAAAAAA="

theorem decrypt_encrypt_sample :
    (decryptApiKey sampleLibrary sampleRaw "AAAAAAAAAAAAAAAA2GeUv0zGMoZad7XAlKAn+qWW"
      (after sampleLibrary sampleRaw [.decrypt "k1"])).1 = .ok "k1" :=
  have hpayload : (encryptApiKey sampleLibrary sampleRaw (List.replicate 12 0) "k1"
      (after sampleLibrary sampleRaw [])).1 = .ok "AAAAAAAAAAAAAAAA2GeUv0zGMoZad7XAlKAn+qWW" := by
    decide +kernel
  decrypt_encrypt sampleLibrary_lawful rfl hpayload [.decrypt "k1"]

end OpenBms.EnterpriseImport.ApiKey
