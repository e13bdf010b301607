import InvoiceFi.Contracts.Upgrade

/-!
# What a migration leaves alone

Markers and records share the keys of a contract's storage, so the marker of one id may stand where
the record of another would. It never stands where a record is: a migration that would set it there
takes the record for a marker and is rejected. `migrate_eq_ok` says what a successful migration is,
`replace` and `Unmarked` of the markers. From it, a migration leaves every other record and every
other migration as they were, keeps the fields of its own record, and is the only one of its id in
any run (`migrations_isolated`).

The status of a record is kept under its name, except that a completed settlement is confirmed.
-/

namespace InvoiceFi

namespace Upgrade

theorem versionKey_injective : Function.Injective versionKey :=
  fun _ _ h => (String.append_left_inj "_v2").1 h

theorem versionKey_ne_self (id : String) : versionKey id ≠ id := by
  intro h
  have hlength := congrArg String.length h
  rw [versionKey, String.length_append] at hlength
  have hsuffix : "_v2".length = 3 := rfl
  omega

/-- The version markers. -/
def versionMarkers : Markers String := ⟨versionKey, versionKey_injective, versionKey_ne_self⟩

section Laws

variable {V1 V2 ε : Type}

/-- The record that a storage has under an id, if what it has there is one. -/
def record (s : Storage V1 V2) (id : String) : Option (V1 ⊕ V2) :=
  match s id with
  | some (.v1 data) => some (.inl data)
  | some (.v2 data) => some (.inr data)
  | _ => none

/-- What an id holds as a V1 record. -/
def asV1 (c : Conversion V1 V2) : Stored V1 V2 → Option V1
  | .v1 data => some data
  | .v2 data => c.asV1 data
  | .version _ => none

variable (v : Versions V1 V2 ε) (c : Conversion V1 V2)

/-- The migration of an id succeeds. -/
def Migrates (env : Env) (s : Storage V1 V2) (id : String) : Prop :=
  ∃ r, migrate v c env s id = .ok r

/-- An entry can be migrated: it is read as a V1 record that passes the guard and is transformed. -/
def Migratable (env : Env) (id : String) (entry : Stored V1 V2) : Prop :=
  ∃ data, asV1 c entry = some data ∧ v.guard env id data = .ok () ∧
    ∃ data', v.transformToV2 env data = .ok data'

variable {v c} {env : Env} {s : Storage V1 V2} {id : String}

theorem getV1_eq_ok_some {data : V1} : (getV1 c s id : Result ε (Option V1)) = .ok (some data) ↔
    ∃ entry, s id = some entry ∧ asV1 c entry = some data := by
  unfold getV1
  cases h : s id with
  | none => simp
  | some entry => cases entry <;> simp [asV1]

/-- What a successful migration is: the id had an unmarked record that can be migrated, which is
replaced and marked. -/
theorem migrate_eq_ok {r : Storage V1 V2 × Migrated} : migrate v c env s id = .ok r ↔
    ∃ entry data data', s id = some entry ∧ asV1 c entry = some data ∧ s (versionKey id) = none ∧
      v.guard env id data = .ok () ∧ v.transformToV2 env data = .ok data' ∧
      r = (versionMarkers.replace s id (.v2 data') (.version 2), ⟨id, 2, env.timestamp⟩) := by
  simp only [migrate, bind_eq_ok, okOr_eq_ok, rejectIf_eq_ok, pure_eq_ok]
  constructor
  · rintro ⟨_, hget, data, rfl, _, hfree, _, hguard, data', hdata', rfl⟩
    obtain ⟨entry, hentry, hdata⟩ := getV1_eq_ok_some.1 hget
    exact ⟨entry, data, data', hentry, hdata, by simpa using hfree, hguard, hdata', rfl⟩
  · rintro ⟨entry, data, data', hentry, hdata, hfree, hguard, hdata', rfl⟩
    exact ⟨_, getV1_eq_ok_some.2 ⟨entry, hentry, hdata⟩, data, rfl, (), by simp [hfree], (), hguard,
      data', hdata', rfl⟩

theorem migrates_iff :
    Migrates v c env s id ↔ versionMarkers.Unmarked (Migratable v c env id) s id := by
  unfold Migrates Markers.Unmarked Migratable
  constructor
  · rintro ⟨r, h⟩
    obtain ⟨entry, data, data', hentry, hdata, hfree, hguard, hdata', -⟩ := migrate_eq_ok.1 h
    exact ⟨⟨entry, hentry, data, hdata, hguard, data', hdata'⟩, hfree⟩
  · rintro ⟨⟨entry, hentry, data, hdata, hguard, data', hdata'⟩, hfree⟩
    exact ⟨_, migrate_eq_ok.2 ⟨entry, data, data', hentry, hdata, hfree, hguard, hdata', rfl⟩⟩

/-- The storage after a migration, which is the one before where the migration fails. -/
def migrated (v : Versions V1 V2 ε) (c : Conversion V1 V2) (env : Env) (s : Storage V1 V2)
    (id : String) : Storage V1 V2 :=
  match migrate v c env s id with
  | .ok (s', _) => s'
  | .error _ => s

/-- A migration leaves the storage alone or replaces and marks an unmarked record. -/
theorem migrated_cases (v : Versions V1 V2 ε) (c : Conversion V1 V2) (env : Env)
    (s : Storage V1 V2) (id : String) :
    migrated v c env s id = s ∨
      s id ≠ none ∧ s (versionKey id) = none ∧
        ∃ data', migrated v c env s id = versionMarkers.replace s id (.v2 data') (.version 2) := by
  unfold migrated
  cases h : migrate v c env s id with
  | error e => exact .inl rfl
  | ok r =>
    obtain ⟨entry, data, data', hentry, -, hfree, -, -, rfl⟩ := migrate_eq_ok.1 h
    exact .inr ⟨by simp [hentry], hfree, data', rfl⟩

/-! ## Other ids -/

variable {id' : String}

/-- A migration leaves whatever else is stored as it was. -/
theorem migrated_of_some (hne : id' ≠ id) (h : s id' ≠ none) :
    migrated v c env s id id' = s id' := by
  obtain heq | ⟨-, hfree, data', heq⟩ := migrated_cases v c env s id
  · rw [heq]
  · rw [heq, Markers.replace_of_some hfree hne h]

/-- It leaves the record of another id as it was, and sets none where there was none. -/
theorem record_migrated (hne : id' ≠ id) :
    record (migrated v c env s id) id' = record s id' := by
  obtain heq | ⟨-, hfree, data', heq⟩ := migrated_cases v c env s id
  · rw [heq]
  · by_cases hkey : id' = versionMarkers.key id
    · have hmarker : versionMarkers.replace s id (.v2 data') (.version 2) id' =
          some (.version 2) := by
        rw [hkey, Markers.replace_key]
      have hnone : s id' = none := by
        rw [hkey]
        exact hfree
      rw [heq, record, record, hmarker, hnone]
    · rw [heq, record, record, Markers.replace_of_ne hne hkey]

/-- Whether the migration of another id succeeds is as it was. -/
theorem migrates_migrated {env' : Env} (hne : id' ≠ id) :
    Migrates v c env' (migrated v c env s id) id' ↔ Migrates v c env' s id' := by
  obtain heq | ⟨hentry, hfree, data', heq⟩ := migrated_cases v c env s id
  · rw [heq]
  · rw [heq, migrates_iff, migrates_iff]
    refine Markers.unmarked_replace_iff hfree hentry hne ?_
    rintro ⟨data, hdata, -⟩
    cases hdata

/-! ## Runs -/

/-- An id whose migration was published is marked, and no id's was published twice. -/
structure Published (st : State V1 V2) : Prop where
  marked : ∀ event ∈ st.events, st.storage (versionKey event.id) ≠ none
  nodup : (st.events.map Migrated.id).Nodup

/-- A successful migration publishes one event, of its own id. -/
theorem Published.migrate {st : State V1 V2} (h : Published st) {r : Storage V1 V2 × Migrated}
    (hr : Upgrade.migrate v c env st.storage id = .ok r) :
    Published ⟨r.1, st.events ++ [r.2]⟩ := by
  obtain ⟨entry, data, data', hentry, -, hfree, -, -, rfl⟩ := migrate_eq_ok.1 hr
  have hsome : st.storage id ≠ none := by simp [hentry]
  have hnew : ∀ event ∈ st.events, event.id ≠ id := by
    rintro event hevent rfl
    exact h.marked event hevent hfree
  constructor
  · intro event hevent
    rcases List.mem_append.1 hevent with hold | hlast
    · have hkeep : versionMarkers.replace st.storage id (.v2 data') (.version 2)
          (versionKey event.id) = none ↔ st.storage (versionKey event.id) = none :=
        Markers.replace_key_of_ne hsome (hnew event hold)
      exact fun hnone => h.marked event hold (hkeep.1 hnone)
    · cases List.mem_singleton.1 hlast
      have hmarker : versionMarkers.replace st.storage id (.v2 data') (.version 2)
          (versionKey id) = some (.version 2) := Markers.replace_key
      exact fun hnone => Option.some_ne_none _ (hmarker.symm.trans hnone)
  · rw [List.map_append, List.nodup_append]
    refine ⟨h.nodup, List.pairwise_singleton _ _, ?_⟩
    intro old hold new hnew' heq
    obtain ⟨event, hevent, rfl⟩ := List.mem_map.1 hold
    exact hnew event hevent (heq.trans (List.mem_singleton.1 hnew'))

/-- What a getter does to the storage is to leave it or to migrate. -/
theorem get_eq_ok {r : V2 × Storage V1 V2 × List Migrated} (h : get v c env s id = .ok r) :
    r.2 = (s, []) ∨
      ∃ r', Upgrade.migrate v c env s id = .ok r' ∧ r.2 = (r'.1, [r'.2]) := by
  obtain ⟨⟨s', events⟩, hcheck, hrest⟩ := bind_eq_ok.1 h
  obtain ⟨data, -, hdata⟩ := bind_eq_ok.1 hrest
  obtain ⟨v2Data, -, hv2Data⟩ := bind_eq_ok.1 hdata
  cases pure_eq_ok.1 hv2Data
  unfold checkVersion at hcheck
  split at hcheck
  · cases hcheck
    exact .inl rfl
  · obtain ⟨r', hr', heq⟩ := bind_eq_ok.1 hcheck
    cases pure_eq_ok.1 heq
    exact .inr ⟨r', hr', rfl⟩

theorem Published.invoke {st st' : State V1 V2} {call : Call} {data : Option V2}
    (h : Published st) (hok : Upgrade.invoke v c st call = .ok (data, st')) : Published st' := by
  cases call with
  | migrate env id =>
    obtain ⟨r, hr, heq⟩ := bind_eq_ok.1 hok
    cases pure_eq_ok.1 heq
    exact h.migrate hr
  | get env id =>
    obtain ⟨r, hr, heq⟩ := bind_eq_ok.1 hok
    cases pure_eq_ok.1 heq
    obtain ⟨data, rest⟩ := r
    obtain rfl | ⟨r', hr', rfl⟩ := get_eq_ok hr
    · rw [List.append_nil]
      exact h
    · exact h.migrate hr'

/-- In every run every id is migrated at most once. -/
theorem migrated_once (v : Versions V1 V2 ε) (c : Conversion V1 V2) (s : Storage V1 V2)
    (calls : List Call) :
    (((contract v c s).exec (contract v c s).init calls).events.map Migrated.id).Nodup := by
  have hpublished : Published ((contract v c s).exec (contract v c s).init calls) := by
    have hinit : Published (contract v c s).init := by
      refine ⟨fun event hevent => ?_, List.nodup_nil⟩
      cases hevent
    exact Machine.invariant hinit (fun call st data st' h hok => h.invoke hok) calls
  exact hpublished.nodup

/-! ## The laws -/

/-- Migrations are isolated from each other and keep what `Kept` says of their own records. -/
structure Isolated (v : Versions V1 V2 ε) (c : Conversion V1 V2) (Kept : V1 → V2 → Prop) :
    Prop where
  stored : ∀ env s id id', id ≠ id' → s id' ≠ none → migrated v c env s id id' = s id'
  record : ∀ env s id id', id ≠ id' → record (migrated v c env s id) id' = record s id'
  migrates : ∀ env env' s id id', id ≠ id' →
    (Migrates v c env' (migrated v c env s id) id' ↔ Migrates v c env' s id')
  kept : ∀ env s id data, s id = some (.v1 data) → Migrates v c env s id →
    ∃ data', migrated v c env s id id = some (.v2 data') ∧ Kept data data'
  failed : ∀ env s id, ¬ Migrates v c env s id → migrated v c env s id = s
  once : ∀ s calls,
    (((contract v c s).exec (contract v c s).init calls).events.map Migrated.id).Nodup

theorem isolated {Kept : V1 → V2 → Prop}
    (h : ∀ env data data', v.transformToV2 env data = .ok data' → Kept data data') :
    Isolated v c Kept where
  stored _ _ _ _ hne hsome := migrated_of_some hne.symm hsome
  record _ _ _ _ hne := record_migrated hne.symm
  migrates _ _ _ _ _ hne := migrates_migrated hne.symm
  kept env s id data hdata := by
    rintro ⟨r, hr⟩
    obtain ⟨entry, data₁, data', hentry, hdata₁, -, -, htransform, rfl⟩ := migrate_eq_ok.1 hr
    cases hdata.symm.trans hentry
    cases hdata₁
    refine ⟨data', ?_, h env data data' htransform⟩
    rw [migrated, hr]
    exact Markers.replace_self
  failed env s id hfails := by
    unfold migrated
    cases hr : migrate v c env s id with
    | error e => rfl
    | ok r => exact absurd ⟨r, hr⟩ hfails
  once := migrated_once v c

end Laws

/-! ## What is kept -/

/-- The V1 fields of an invoice. -/
structure InvoiceKept (v1 : V1InvoiceData) (v2 : V2InvoiceData) : Prop where
  id : v2.id = v1.id
  seller : v2.seller = v1.seller
  buyer : v2.buyer = v1.buyer
  amount : v2.amount = v1.amount
  asset : v2.asset = v1.asset
  createdAt : v2.createdAt = v1.createdAt
  status : v2.status = V2InvoiceContract.status v1.status

theorem V2InvoiceContract.transformToV2_kept {addressText : Address → String} (env : Env)
    {v1 : V1InvoiceData} {v2 : V2InvoiceData}
    (h : V2InvoiceContract.transformToV2 addressText env v1 = .ok v2) : InvoiceKept v1 v2 := by
  obtain ⟨collateral, -, hrest⟩ := bind_eq_ok.1 h
  obtain ⟨_, -, hv2⟩ := bind_eq_ok.1 hrest
  cases pure_eq_ok.1 hv2
  constructor <;> rfl

/-- The V1 fields of a pool. -/
structure PoolKept (v1 : V1PoolData) (v2 : V2PoolData) : Prop where
  id : v2.id = v1.id
  admin : v2.admin = v1.admin
  totalCommitted : v2.totalCommitted = v1.totalCommitted
  totalDeployed : v2.totalDeployed = v1.totalDeployed
  totalReturned : v2.totalReturned = v1.totalReturned
  createdAt : v2.createdAt = v1.createdAt
  status : v2.status = V2FinancingPool.status v1.status

theorem V2FinancingPool.transformToV2_kept (env : Env) {v1 : V1PoolData} {v2 : V2PoolData}
    (h : V2FinancingPool.transformToV2 env v1 = .ok v2) : PoolKept v1 v2 := by
  cases pure_eq_ok.1 h
  constructor <;> rfl

/-- The V1 fields of a settlement. -/
structure SettlementKept (v1 : V1SettlementData) (v2 : V2SettlementData) : Prop where
  id : v2.id = v1.id
  invoiceId : v2.invoiceId = v1.invoiceId
  payer : v2.payer = v1.payer
  payee : v2.payee = v1.payee
  amount : v2.amount = v1.amount
  asset : v2.asset = v1.asset
  settledAt : v2.settledAt = v1.settledAt
  status : v2.status = V2Settlement.status v1.status

theorem V2Settlement.transformToV2_kept (env : Env) {v1 : V1SettlementData}
    {v2 : V2SettlementData} (h : V2Settlement.transformToV2 env v1 = .ok v2) :
    SettlementKept v1 v2 := by
  obtain ⟨feeAmount, -, hv2⟩ := bind_eq_ok.1 h
  cases pure_eq_ok.1 hv2
  constructor <;> rfl

/-- The status of a settlement can be read back, although that of a completed one is renamed. -/
theorem V2Settlement.status_injective : Function.Injective V2Settlement.status := by
  intro status status' h
  cases status <;> cases status' <;> first | rfl | cases h

/-- In all three contracts, migrations are isolated from each other and keep the V1 fields of their
records, where the completed settlements become confirmed ones. -/
theorem migrations_isolated (addressText : Address → String)
    (invoices : Conversion V1InvoiceData V2InvoiceData)
    (pools : Conversion V1PoolData V2PoolData)
    (settlements : Conversion V1SettlementData V2SettlementData) :
    Isolated (V2InvoiceContract.versions addressText) invoices InvoiceKept ∧
    Isolated V2FinancingPool.versions pools PoolKept ∧
    Isolated V2Settlement.versions settlements SettlementKept ∧
    Function.Injective V2Settlement.status :=
  ⟨isolated fun env _ _ => V2InvoiceContract.transformToV2_kept env,
    isolated fun env _ _ => V2FinancingPool.transformToV2_kept env,
    isolated fun env _ _ => V2Settlement.transformToV2_kept env, V2Settlement.status_injective⟩

/-- A completed settlement, which is stored as `"S-1"`. -/
def completedSettlement : V1SettlementData :=
  ⟨"S-1", "INV-1", ⟨1⟩, ⟨2⟩, .lit 1000, "XLM", 5, .completed⟩

/-- The migration of a completed settlement makes it a confirmed one, although settlements of the
new version can be completed. -/
theorem completed_confirmed : ∃ data',
    migrated V2Settlement.versions ⟨fun _ => none, fun _ => none⟩ ⟨7, 100, []⟩
        (fun id => if id = "S-1" then some (.v1 completedSettlement) else none) "S-1" "S-1" =
      some (.v2 data') ∧
    completedSettlement.status = .completed ∧ data'.status = .confirmed ∧
      data'.status ≠ V2SettlementStatus.completed := by
  refine ⟨_, rfl, rfl, rfl, by decide⟩

end Upgrade

end InvoiceFi
