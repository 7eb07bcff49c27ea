import Mathlib.Data.List.Basic

/-! The collaborators of the ODBC backend that live outside `backend/odbc/mod.rs`, modelled from
the spec: the store and profile keys, the error kinds, the profile key codec that wraps a
profile key under a store key (`encode_profile_key` and the unwrapping of `KeyCache::load_key`),
the entry codec that encrypts the category, name, value and tags of an entry, and the `KeyCache`
itself. The codecs are structures whose fields are the laws the spec gives them, so every theorem
about the backend holds for every codec that keeps those laws; `KeyWrap.symbolic` and
`EntryCodec.plain` show that the laws can be met, and are the codecs of the concrete stores on
which the model's runs are evaluated. -/

namespace AskarOdbc

/-- A byte string, `Vec<u8>` in the source. -/
abbrev Bytes := List UInt8

/-- Modelled from the spec: a store (master) key; `secret` stands for its key material. -/
structure StoreKey where
  secret : Nat
  deriving DecidableEq, Repr

/-- Modelled from the spec: a profile key, generated at random when its profile is created. -/
structure ProfileKey where
  secret : Nat
  deriving DecidableEq, Repr

/-- Modelled from the spec (section 7): the kinds of `Error`. -/
inductive ErrorKind
  | backend
  | crypto
  | duplicate
  | notFound
  | unsupported
  deriving DecidableEq, Repr

/-- An `Error`, `err_msg!(kind, message)` in the source. -/
structure Error where
  kind : ErrorKind
  message : String
  deriving DecidableEq, Repr

/-- How a call ends when it does not return a value: with an `Err` that `?` passes up, or with
the panic of an `.unwrap()`. -/
inductive Fault
  | error (e : Error)
  | panic
  deriving DecidableEq, Repr

/-- Modelled from the spec (sections 3, 4.1 and 6): the profile key codec. `wrap` is
`encode_profile_key`; `unwrap` is what `KeyCache::load_key` does to a stored key. A wrapped key
opens under the store key it was wrapped with, and a stored key opens under at most one store key:
"a profile's encrypted key is decryptable exactly when the correct current store key is
supplied". -/
structure KeyWrap where
  wrap : ProfileKey → StoreKey → Bytes
  unwrap : StoreKey → Bytes → Except Error ProfileKey
  unwrap_wrap : ∀ k sk, unwrap sk (wrap k sk) = .ok k
  unwrap_unique : ∀ sk sk' b k k', unwrap sk b = .ok k → unwrap sk' b = .ok k' → sk = sk'

namespace KeyWrap

variable (kw : KeyWrap)

/-- A key wrapped under one store key does not open under another. -/
theorem unwrap_wrap_ne {k : ProfileKey} {sk sk' : StoreKey} (hne : sk' ≠ sk) (k' : ProfileKey) :
    kw.unwrap sk' (kw.wrap k sk) ≠ .ok k' :=
  fun h => hne (kw.unwrap_unique sk' sk _ k' k h (kw.unwrap_wrap k sk))

/-- Whatever opens a wrapped key, opens it to the key that was wrapped. -/
theorem unwrap_wrap_eq {k k' : ProfileKey} {sk sk' : StoreKey}
    (h : kw.unwrap sk' (kw.wrap k sk) = .ok k') : sk' = sk ∧ k' = k := by
  obtain rfl := kw.unwrap_unique sk' sk _ k' k h (kw.unwrap_wrap k sk)
  rw [kw.unwrap_wrap] at h
  exact ⟨rfl, (Except.ok.inj h).symm⟩

end KeyWrap

/-- `encode_profile_key` (in `db_utils`): the profile key wrapped under the store key. -/
def encodeProfileKey (kw : KeyWrap) (profileKey : ProfileKey) (storeKey : StoreKey) : Bytes :=
  kw.wrap profileKey storeKey

/-- A tag as `prepare_tags` leaves it: name and value as bytes, and whether it is plaintext. -/
structure EntryTag where
  name : Bytes
  value : Bytes
  plaintext : Bool
  deriving DecidableEq, Repr

/-- A tag as `encrypt_entry_tags` returns it: `EncEntryTag`. -/
structure EncEntryTag where
  name : Bytes
  value : Bytes
  plaintext : Bool
  deriving DecidableEq, Repr

/-- Modelled from the spec (sections 4.4 and 8): the entry codec of a profile key. Category and
name are encrypted deterministically, since the backend finds rows by them, so each encryption
is injective; the value is encrypted with category and name as context, and a tag one by one;
both decrypt back. -/
structure EntryCodec where
  encryptCategory : ProfileKey → Bytes → Bytes
  encryptName : ProfileKey → Bytes → Bytes
  encryptValue : ProfileKey → Bytes → Bytes → Bytes → Bytes
  decryptValue : ProfileKey → Bytes → Bytes → Bytes → Option Bytes
  encryptTag : ProfileKey → EntryTag → EncEntryTag
  decryptTag : ProfileKey → EncEntryTag → Option EntryTag
  encryptCategory_injective : ∀ k, Function.Injective (encryptCategory k)
  encryptName_injective : ∀ k, Function.Injective (encryptName k)
  decryptValue_encryptValue : ∀ k c n v, decryptValue k c n (encryptValue k c n v) = some v
  decryptTag_encryptTag : ∀ k t, decryptTag k (encryptTag k t) = some t

/-- Modelled from the spec (section 4.1): `KeyCache`, shared by the backend and all its
sessions. `profileInfo` maps a profile name to its id (its `ProfileId`, an `i64`) and key, as the
`HashMap` behind the cache's lock does; `storeKey` is the store key that `load_key` unwraps
with. -/
structure KeyCache where
  storeKey : StoreKey
  profileInfo : String → Option (Int × ProfileKey)

namespace KeyCache

/-- `KeyCache::new`: no profile cached. -/
def new (storeKey : StoreKey) : KeyCache := ⟨storeKey, fun _ => none⟩

/-- `KeyCache::get_profile`. -/
def getProfile (c : KeyCache) (name : String) : Option (Int × ProfileKey) :=
  c.profileInfo name

/-- `KeyCache::add_profile`: the last writer for a name wins. -/
def addProfile (c : KeyCache) (name : String) (pid : Int) (key : ProfileKey) : KeyCache :=
  { c with profileInfo := fun n => if n = name then some (pid, key) else c.profileInfo n }

/-- The unwrapping of `KeyCache::load_key`, under the cache's store key. -/
def loadKey (kw : KeyWrap) (c : KeyCache) (ciphertext : Bytes) : Except Error ProfileKey :=
  kw.unwrap c.storeKey ciphertext

@[simp] theorem addProfile_storeKey (c : KeyCache) (name pid key) :
    (c.addProfile name pid key).storeKey = c.storeKey := rfl

@[simp] theorem getProfile_addProfile (c : KeyCache) (name n pid key) :
    (c.addProfile name pid key).getProfile n =
      if n = name then some (pid, key) else c.getProfile n := rfl

end KeyCache

/-! ### Codecs that meet the laws -/

/-- The unary code of two numbers: `a` zeros, a one, `b` zeros. -/
def sealBytes (a b : Nat) : Bytes := List.replicate a 0 ++ 1 :: List.replicate b 0

theorem sealBytes_length (a b : Nat) : (sealBytes a b).length = a + 1 + b := by
  simp [sealBytes]; omega

theorem sealBytes_inj {a b c d : Nat} (h : sealBytes a b = sealBytes c d) : a = c ∧ b = d := by
  induction a generalizing c with
  | zero =>
    cases c with
    | zero => simpa [sealBytes, List.replicate_inj] using h
    | succ c => simp [sealBytes, List.replicate_succ] at h
  | succ a ih =>
    cases c with
    | zero => simp [sealBytes, List.replicate_succ] at h
    | succ c =>
      simp only [sealBytes, List.replicate_succ, List.cons_append, List.cons.injEq, true_and] at h
      simpa using ih h

/-- A symbolic key codec: a wrapped key is the unary code of the store key's and the profile
key's secrets, and it opens only under the store key coded in it. -/
def KeyWrap.symbolic : KeyWrap where
  wrap k sk := sealBytes sk.secret k.secret
  unwrap sk b :=
    if b = sealBytes sk.secret (b.length - sk.secret - 1) then .ok ⟨b.length - sk.secret - 1⟩
    else .error ⟨.crypto, "wrong store key"⟩
  unwrap_wrap k sk := by
    have : (sealBytes sk.secret k.secret).length - sk.secret - 1 = k.secret := by
      rw [sealBytes_length]; omega
    simp [this]
  unwrap_unique sk sk' b k k' h h' := by
    dsimp only at h h'
    split at h
    · split at h'
      · rename_i h1 h2
        exact congrArg StoreKey.mk (sealBytes_inj (h1.symm.trans h2)).1
      · cases h'
    · cases h

/-- An entry codec that stores every field as it is: it meets the laws, and lets a run whose
outcome does not depend on encryption be evaluated on readable rows. -/
def EntryCodec.plain : EntryCodec where
  encryptCategory _ c := c
  encryptName _ n := n
  encryptValue _ _ _ v := v
  decryptValue _ _ _ v := some v
  encryptTag _ t := ⟨t.name, t.value, t.plaintext⟩
  decryptTag _ t := some ⟨t.name, t.value, t.plaintext⟩
  encryptCategory_injective _ := fun _ _ h => h
  encryptName_injective _ := fun _ _ h => h
  decryptValue_encryptValue _ _ _ _ := rfl
  decryptTag_encryptTag _ _ := rfl

end AskarOdbc
