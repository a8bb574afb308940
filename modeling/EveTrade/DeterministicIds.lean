import EveTrade.PlanRefinement
import Mathlib.Data.Set.Function

set_option autoImplicit false

/-!
# Ids derived from idempotency keys

An id that a request does not give is the digest of its idempotency key and of what the id is for,
with the version and variant of a random UUID written over six of its bits. The key is any text, and
may hold the separator and the purposes themselves.
-/
namespace EveTrade.DeterministicIds

open JsonText FieldText UuidText UuidFields TransactionMonad SettlementTypes SettlementWork
  ValidationRules GameTrade PlanRefinement

inductive Purpose where
  | tradeInstance
  | itemStackEscrow
  | buyerDestinationItemStack
  | walletEscrow
deriving DecidableEq

def Purpose.text : Purpose → String
  | .tradeInstance => "trade-instance"
  | .itemStackEscrow => "item-stack-escrow"
  | .buyerDestinationItemStack => "buyer-destination-item-stack"
  | .walletEscrow => "wallet-escrow"

def digested (idempotencyKey : String) (purpose : Purpose) : String :=
  "eve-trade:" ++ idempotencyKey ++ ":" ++ purpose.text

section Inputs

theorem eq_of_last_separator {a b p q : List Char} (hp : ':' ∉ p) (hq : ':' ∉ q)
    (h : a ++ ':' :: p = b ++ ':' :: q) : a = b ∧ p = q := by
  rcases List.append_eq_append_iff.mp h with ⟨c, rfl, hc⟩ | ⟨c, rfl, hc⟩
  · cases c with
    | nil => exact ⟨by simp, (List.cons.inj hc).2⟩
    | cons x c =>
      rw [(List.cons.inj hc).2] at hp
      simp at hp
  · cases c with
    | nil => exact ⟨by simp, (List.cons.inj hc).2.symm⟩
    | cons x c =>
      rw [(List.cons.inj hc).2] at hq
      simp at hq

theorem separator_not_mem_text (purpose : Purpose) : ':' ∉ purpose.text.toList := by
  cases purpose <;> decide

theorem purpose_text_injective : Function.Injective Purpose.text := by
  intro p q h
  cases p <;> cases q <;> first | rfl | exact absurd h (by decide)

theorem digested_injective {key key' : String} {p p' : Purpose}
    (h : digested key p = digested key' p') : key = key' ∧ p = p' := by
  have hchars := congrArg String.toList h
  simp only [digested, String.toList_append, List.append_assoc] at hchars
  have hrest := List.append_cancel_left hchars
  obtain ⟨hkey, hpurpose⟩ :=
    eq_of_last_separator (separator_not_mem_text p) (separator_not_mem_text p') hrest
  exact ⟨String.toList_inj.mp hkey, purpose_text_injective (String.toList_inj.mp hpurpose)⟩

end Inputs

section Bits

variable {digest : List Char}

def cleared (d : List Char) : List Char :=
  (d.set 12 '0').set 16 (hexDigit (((Uuid.hexDigitValue? (d.getD 16 '0')).getD 0) % 4))

def keptBits (digest : String) : List Char := cleared (digest.toList.take 32)

/-- Digests are lower-case hexadecimal, and have at least sixteen bytes. -/
def LowerHexDigests (ext : External) : Prop :=
  ∀ s, 32 ≤ (ext.sha256Hex s).toList.length ∧
    ∀ c ∈ (ext.sha256Hex s).toList, ∃ v < 16, c = hexDigit v

theorem hexDigit_injective {v w : ℕ} (hv : v < 16) (hw : w < 16) (h : hexDigit v = hexDigit w) :
    v = w := by
  have hvalue := Uuid.hexDigitValue?_hexDigit hv
  rw [h, Uuid.hexDigitValue?_hexDigit hw] at hvalue
  exact (Option.some.inj hvalue).symm

theorem getElem?_hexDigits {k i : ℕ} (hi : i < k) (n : ℕ) :
    (Uuid.hexDigits k n)[i]? = some (hexDigit (n / 16 ^ (k - 1 - i) % 16)) := by
  induction k generalizing n with
  | zero => omega
  | succ k ih =>
    rw [Uuid.hexDigits]
    by_cases hlast : i = k
    · rw [hlast, List.getElem?_append_right (by rw [Uuid.length_hexDigits]), Uuid.length_hexDigits]
      simp
    · have hlt : i < k := by omega
      rw [List.getElem?_append_left (by rwa [Uuid.length_hexDigits]), ih hlt, Nat.div_div_eq_div_mul,
        ← Nat.pow_succ']
      have hexp : (k - 1 - i).succ = k + 1 - 1 - i := by omega
      rw [hexp]

theorem cleared_versionFour (hlen : 32 ≤ digest.length) :
    cleared (versionFour digest) = cleared (digest.take 32) := by
  have hget : (digest.take 32).getD 16 '0' = digest.getD 16 '0' := by
    simp [List.getD_eq_getElem?_getD]
  have hvariant : (versionFour digest).getD 16 '0' = variantDigit (digest.getD 16 '0') := by
    simp [versionFour, List.getD_eq_getElem?_getD, hlen]
  have hvalue : (Uuid.hexDigitValue? (variantDigit (digest.getD 16 '0'))).getD 0 % 4 =
      (Uuid.hexDigitValue? (digest.getD 16 '0')).getD 0 % 4 := by
    rw [variantDigit, Uuid.hexDigitValue?_hexDigit (by omega), Option.getD_some]
    omega
  unfold cleared
  rw [hvariant, hvalue, hget, versionFour, List.set_comm _ _ (by decide : 16 ≠ 12)]
  simp [List.set_set]

theorem hyphenated_injective {d e : List Char} (hd : d.length = 32) (he : e.length = 32)
    (h : Uuid.hyphenated d = Uuid.hyphenated e) : d = e := by
  have hsplit : ∀ cs : List Char, cs = cs.take 8 ++ ((cs.drop 8).take 4 ++ ((cs.drop 12).take 4 ++
      ((cs.drop 16).take 4 ++ cs.drop 20))) := by
    intro cs
    rw [← take_append_drop_drop cs 16 4, ← take_append_drop_drop cs 12 4,
      ← take_append_drop_drop cs 8 4, List.take_append_drop]
  unfold Uuid.hyphenated at h
  obtain ⟨h0, h⟩ := List.append_inj h (by simp [hd, he])
  obtain ⟨h1, h⟩ := List.append_inj (List.cons.inj h).2 (by simp [hd, he])
  obtain ⟨h2, h⟩ := List.append_inj (List.cons.inj h).2 (by simp [hd, he])
  obtain ⟨h3, h⟩ := List.append_inj (List.cons.inj h).2 (by simp [hd, he])
  rw [hsplit d, hsplit e, h0, h1, h2, h3, (List.cons.inj h).2]

def version (u : Uuid) : ℕ := u.value / 2 ^ 76 % 16

def variant (u : Uuid) : ℕ := u.value / 2 ^ 62 % 4

theorem versionFour_lowerHex (h : ∀ c ∈ digest, ∃ v < 16, c = hexDigit v) :
    ∀ c ∈ versionFour digest, ∃ v < 16, c = hexDigit v := by
  intro c hc
  unfold versionFour at hc
  rcases List.mem_or_eq_of_mem_set hc with hc | rfl
  · rcases List.mem_or_eq_of_mem_set hc with hc | rfl
    · exact h c (List.mem_of_mem_take hc)
    · exact ⟨4, by decide, by decide⟩
  · exact ⟨_, by omega, rfl⟩

theorem toLower_hexDigit {v : ℕ} (h : v < 16) : (hexDigit v).toLower = hexDigit v := by
  interval_cases v <;> decide

theorem exists_versionFour (hlen : 32 ≤ digest.length)
    (hhex : ∀ c ∈ digest, ∃ v < 16, c = hexDigit v) :
    ∃ u : Uuid, String.ofList (Uuid.hyphenated (versionFour digest)) = u.text ∧
      version u = 4 ∧ variant u = 2 := by
  have hdlen : (versionFour digest).length = 32 := by
    simp only [versionFour, List.length_set, List.length_take]
    omega
  have hdigit := versionFour_lowerHex hhex
  obtain ⟨n, -, hlt, hdigits⟩ := exists_hexValue (d := versionFour digest) (fun c hc => by
    obtain ⟨v, hv, rfl⟩ := hdigit c hc
    exact isHexDigit_hexDigit hv)
  have hlower : (versionFour digest).map Char.toLower = versionFour digest := by
    conv_rhs => rw [← List.map_id (versionFour digest)]
    apply List.map_congr_left
    intro c hc
    obtain ⟨v, hv, rfl⟩ := hdigit c hc
    exact toLower_hexDigit hv
  rw [hdlen] at hlt hdigits
  rw [hlower] at hdigits
  have hvalue : ((Uuid.ofNat n).value : ℕ) = n := Nat.mod_eq_of_lt hlt
  have hsize : 16 < (digest.take 32).length := by
    rw [List.length_take]
    omega
  refine ⟨Uuid.ofNat n, by rw [Uuid.text, hvalue, hdigits], ?_, ?_⟩
  · have hfour : (versionFour digest)[12]? = some (hexDigit 4) := by
      rw [versionFour, List.getElem?_set_ne (by decide), List.getElem?_set_self (by omega)]
      rfl
    rw [← hdigits, getElem?_hexDigits (by decide)] at hfour
    rw [version, hvalue]
    exact hexDigit_injective (Nat.mod_lt _ (by decide)) (by decide) (Option.some.inj hfour)
  · have htop : (versionFour digest)[16]? = some (variantDigit (digest.getD 16 '0')) := by
      rw [versionFour, List.getElem?_set_self (by rw [List.length_set]; exact hsize)]
    rw [← hdigits, getElem?_hexDigits (by decide), variantDigit] at htop
    have hnibble := hexDigit_injective (Nat.mod_lt _ (by decide)) (by omega)
      (Option.some.inj htop)
    rw [variant, hvalue]
    omega

end Bits

section Requests

variable {ext : External}
variable {now : DateTime} {input : PlanInput}

def requestKey : PlanInput → String
  | .issue input => input.idempotencyKey
  | .accept input => input.idempotencyKey
  | .cancel input => input.idempotencyKey

/-- Something for an id that is not given. -/
def leftOpen {α : Type} (given : String) (a : α) : List α := if given = "" then [a] else []

/-- The purposes of the ids that a request leaves to be generated. -/
def purposes : PlanInput → List Purpose
  | .issue input =>
    leftOpen input.tradeInstanceId .tradeInstance ++
      leftOpen input.itemStackEscrowId .itemStackEscrow
  | .accept input =>
    leftOpen input.buyerDestinationItemStackId .buyerDestinationItemStack ++
      leftOpen input.walletEscrowId .walletEscrow
  | .cancel _ => []

def generated (plan : SettlementPlan) : PlanInput → List (Purpose × String)
  | .issue input =>
    leftOpen input.tradeInstanceId (.tradeInstance, plan.tradeInstanceId) ++
      leftOpen input.itemStackEscrowId (.itemStackEscrow, plan.itemStackEscrowId)
  | .accept input =>
    leftOpen input.buyerDestinationItemStackId
        (.buyerDestinationItemStack, plan.destinationItemStackId) ++
      leftOpen input.walletEscrowId (.walletEscrow, plan.walletEscrowId)
  | .cancel _ => []

/-- The ids that are generated when a request is planned at `now`. -/
def generatedIds (ext : External) (now : DateTime) (input : PlanInput) : List (Purpose × String) :=
  match input.plan ext now with
  | .ok plan => generated plan input
  | .error _ => []

def idOf (ext : External) (idempotencyKey : String) (purpose : Purpose) : String :=
  String.ofList (Uuid.hyphenated
    (versionFour (ext.sha256Hex (digested idempotencyKey purpose)).toList))

theorem leftOpen_id {given key id : String} (purpose : Purpose)
    (h : givenOrDeterministicId ext given key purpose.text = .ok id) :
    leftOpen given (purpose, id) =
      (leftOpen given purpose).map fun purpose => (purpose, idOf ext key purpose) := by
  unfold leftOpen
  split_ifs with hgiven
  · rw [givenOrDeterministicId, if_pos hgiven, deterministicId] at h
    split_ifs at h
    rw [← Except.ok.inj h]
    rfl
  · rfl

/-- A planned request has the ids of its key, one for each purpose it leaves open. -/
theorem generated_eq {plan : SettlementPlan} (h : input.plan ext now = .ok plan) :
    generated plan input =
      (purposes input).map fun purpose => (purpose, idOf ext (requestKey input) purpose) := by
  cases input with
  | issue input =>
    obtain ⟨_, -, h⟩ := except_bind_eq_ok.1 h
    obtain ⟨tradeInstanceId, htrade, h⟩ := except_bind_eq_ok.1 h
    obtain ⟨itemStackEscrowId, hescrow, h⟩ := except_bind_eq_ok.1 h
    obtain rfl := Except.ok.inj h
    simp only [generated, purposes, List.map_append, issuePlan, requestKey]
    rw [leftOpen_id .tradeInstance htrade, leftOpen_id .itemStackEscrow hescrow]
  | accept input =>
    obtain ⟨_, -, h⟩ := except_bind_eq_ok.1 h
    obtain ⟨destinationItemStackId, hstack, h⟩ := except_bind_eq_ok.1 h
    obtain ⟨walletEscrowId, hescrow, h⟩ := except_bind_eq_ok.1 h
    obtain rfl := Except.ok.inj h
    simp only [generated, purposes, List.map_append, acceptPlan, requestKey]
    rw [leftOpen_id .buyerDestinationItemStack hstack, leftOpen_id .walletEscrow hescrow]
  | cancel input => rfl

theorem id_of_mem_generatedIds {purpose : Purpose}
    {id : String} (h : (purpose, id) ∈ generatedIds ext now input) :
    id = idOf ext (requestKey input) purpose := by
  unfold generatedIds at h
  split at h
  · rw [generated_eq ‹_›, List.mem_map] at h
    obtain ⟨_, -, heq⟩ := h
    cases heq
    rfl
  · cases h

theorem idOf_uuid (digests : LowerHexDigests ext) (key : String) (purpose : Purpose) :
    ∃ u : Uuid, idOf ext key purpose = u.text ∧ version u = 4 ∧ variant u = 2 := by
  obtain ⟨hlen, hhex⟩ := digests (digested key purpose)
  exact exists_versionFour hlen hhex

theorem isUuidText_text (u : Uuid) : isUuidText u.text = true :=
  isUuidText_hyphenated (Uuid.length_hexDigits 32 _) fun _ hc => isHexDigit_of_mem_hexDigits hc

theorem requiredUuid_text (u : Uuid) (fieldName : String) :
    requiredUuid u.text fieldName = .ok u := by
  have htext := isUuidText_text u
  have hstring : requiredString u.text fieldName = .ok u.text := by
    rw [requiredString, trim_of_isUuidText htext, if_neg (ne_empty_of_isUuidText htext)]
  rw [requiredUuid, hstring]
  simp only [bind, Except.bind, Uuid.parse_text]

theorem uuidString_holds (s : String) : uuidString.holds s = isUuidText s := rfl

/-- An id of a key is a random UUID, which the rules accept and the service reads as it is. -/
theorem idOf_accepted (digests : LowerHexDigests ext) (key : String) (purpose : Purpose) :
    uuidString.holds (idOf ext key purpose) = true ∧
      ∃ u : Uuid, (∀ fieldName, requiredUuid (idOf ext key purpose) fieldName = .ok u) ∧
        u.text = idOf ext key purpose ∧ version u = 4 ∧ variant u = 2 := by
  obtain ⟨u, htext, hversion, hvariant⟩ := idOf_uuid digests key purpose
  rw [htext]
  refine ⟨?_, u, requiredUuid_text u, rfl, hversion, hvariant⟩
  rw [uuidString_holds]
  exact isUuidText_text u

theorem generatedIds_of_plan {plan : SettlementPlan} (h : input.plan ext now = .ok plan) :
    generatedIds ext now input =
      (purposes input).map fun purpose => (purpose, idOf ext (requestKey input) purpose) := by
  rw [generatedIds, h]
  exact generated_eq h

theorem keptBits_of_idOf_eq (digests : LowerHexDigests ext) {key key' : String}
    {purpose purpose' : Purpose} (h : idOf ext key purpose = idOf ext key' purpose') :
    keptBits (ext.sha256Hex (digested key purpose)) =
      keptBits (ext.sha256Hex (digested key' purpose')) := by
  have hlen : ∀ s, (versionFour (ext.sha256Hex s).toList).length = 32 := by
    intro s
    have := (digests s).1
    simp only [versionFour, List.length_set, List.length_take]
    omega
  have hdigits := hyphenated_injective (hlen _) (hlen _) (String.ofList_injective h)
  rw [keptBits, keptBits, ← cleared_versionFour (digests _).1, ← cleared_versionFour (digests _).1,
    hdigits]

/-- Requests under different keys, whatever the keys are made of, get different ids for all that they
leave open. Each is the text of a random UUID, which the rules accept and the service reads as it is;
and whatever is planned under a key has the same id for the same purpose. -/
theorem generated_ids_distinct (ext : External) (digests : LowerHexDigests ext)
    (requests : Set (DateTime × PlanInput))
    (hkeys : ∀ r ∈ requests, ∀ r' ∈ requests, requestKey r.2 = requestKey r'.2 → r = r')
    (hkept : Set.InjOn (fun s => keptBits (ext.sha256Hex s))
      {s | ∃ r ∈ requests, ∃ purpose, s = digested (requestKey r.2) purpose}) :
    (∀ r ∈ requests, ∀ r' ∈ requests, ∀ purpose purpose' id,
      (purpose, id) ∈ generatedIds ext r.1 r.2 → (purpose', id) ∈ generatedIds ext r'.1 r'.2 →
        r = r' ∧ purpose = purpose') ∧
    (∀ r ∈ requests, ∀ purpose id, (purpose, id) ∈ generatedIds ext r.1 r.2 →
      uuidString.holds id = true ∧
        ∃ u : Uuid, (∀ fieldName, requiredUuid id fieldName = .ok u) ∧ u.text = id ∧
          version u = 4 ∧ variant u = 2) ∧
    (∀ r ∈ requests, ∀ now input purpose id id', requestKey input = requestKey r.2 →
      (purpose, id) ∈ generatedIds ext r.1 r.2 → (purpose, id') ∈ generatedIds ext now input →
        id' = id) ∧
    (∀ r ∈ requests, ∀ now plan plan', r.2.plan ext r.1 = .ok plan → r.2.plan ext now = .ok plan' →
      generatedIds ext now r.2 = generatedIds ext r.1 r.2) := by
  refine ⟨?_, ?_, ?_, ?_⟩
  · intro r hr r' hr' purpose purpose' id hid hid'
    have hsame : idOf ext (requestKey r.2) purpose = idOf ext (requestKey r'.2) purpose' := by
      rw [← id_of_mem_generatedIds hid, id_of_mem_generatedIds hid']
    obtain ⟨hkey, hpurpose⟩ := digested_injective
      (hkept ⟨r, hr, purpose, rfl⟩ ⟨r', hr', purpose', rfl⟩ (keptBits_of_idOf_eq digests hsame))
    exact ⟨hkeys r hr r' hr' hkey, hpurpose⟩
  · intro r _ purpose id hid
    rw [id_of_mem_generatedIds hid]
    exact idOf_accepted digests _ purpose
  · intro r _ now input purpose id id' hkey hid hid'
    rw [id_of_mem_generatedIds hid, id_of_mem_generatedIds hid', hkey]
  · intro r _ now plan plan' hplan hplan'
    rw [generatedIds_of_plan hplan, generatedIds_of_plan hplan']

open LocalDevWorld

/-- A sale under a key, with nothing given. -/
def saleUnder (key : String) : IssueTradeInstanceInput :=
  { offerInput key with tradeInstanceId := "", itemStackEscrowId := "" }

/-- Two sales, where the one key is the other with the separator and a purpose behind it. -/
def nestedKeys : Set (DateTime × PlanInput) :=
  {(0, .issue (saleUnder "a")), (0, .issue (saleUnder "a:trade-instance"))}

theorem hexadecimal_lowerHexDigests : LowerHexDigests hexadecimal := by
  intro s
  have hdigits : (hexadecimal.sha256Hex s).toList = Uuid.hexDigits 32 (positional s) :=
    String.toList_ofList
  rw [hdigits]
  refine ⟨(Uuid.length_hexDigits 32 _).ge, fun c hc => ?_⟩
  obtain ⟨i, hi⟩ := List.mem_iff_getElem?.mp hc
  have hlt : i < 32 := by
    have := (List.getElem?_eq_some_iff.mp hi).1
    rwa [Uuid.length_hexDigits] at this
  rw [getElem?_hexDigits hlt] at hi
  exact ⟨_, Nat.mod_lt _ (by decide), (Option.some.inj hi).symm⟩

def allPurposes : List Purpose :=
  [.tradeInstance, .itemStackEscrow, .buyerDestinationItemStack, .walletEscrow]

theorem generated_ids_distinct_nestedKeys : nestedKeys.Nonempty ∧
    ∀ r ∈ nestedKeys, ∀ r' ∈ nestedKeys, ∀ purpose purpose' id,
      (purpose, id) ∈ generatedIds hexadecimal r.1 r.2 →
      (purpose', id) ∈ generatedIds hexadecimal r'.1 r'.2 → r = r' ∧ purpose = purpose' := by
  have hkept : ∀ key ∈ ["a", "a:trade-instance"], ∀ key' ∈ ["a", "a:trade-instance"],
      ∀ p ∈ allPurposes, ∀ p' ∈ allPurposes,
      keptBits (hexadecimal.sha256Hex (digested key p)) =
        keptBits (hexadecimal.sha256Hex (digested key' p')) → key = key' ∧ p = p' := by
    decide +kernel
  have hall : ∀ p : Purpose, p ∈ allPurposes := by
    intro p
    cases p <;> decide
  refine ⟨⟨_, .inl rfl⟩,
    (generated_ids_distinct hexadecimal hexadecimal_lowerHexDigests nestedKeys ?_ ?_).1⟩
  · rintro r (rfl | rfl) r' (rfl | rfl) hkey
    · rfl
    · exact absurd hkey (by decide)
    · exact absurd hkey (by decide)
    · rfl
  · have hkey : ∀ r ∈ nestedKeys, requestKey r.2 ∈ ["a", "a:trade-instance"] := by
      rintro r (rfl | rfl)
      · exact List.mem_cons_self
      · exact List.mem_cons_of_mem _ List.mem_cons_self
    rintro s ⟨r, hr, p, rfl⟩ s' ⟨r', hr', p', rfl⟩ hsame
    obtain ⟨hkeys, rfl⟩ := hkept _ (hkey r hr) _ (hkey r' hr') p (hall p) p' (hall p') hsame
    rw [hkeys]

end Requests

end EveTrade.DeterministicIds
