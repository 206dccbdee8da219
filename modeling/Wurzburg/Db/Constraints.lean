import Wurzburg.Db.Sessions

/-!
# Wurzburg.Db.Constraints

The constraints of the migration as a property of the database (`Pg.Valid`): keys
and unique indexes, lengths, texts and `CHECK`s, and foreign keys. They hold of the
empty database and every statement keeps them (`Sql.exec_valid`), so that they hold
whenever a method is run.
-/

namespace Wurzburg.Db

open Wurzburg.Lib

/-! ### The constraints -/

/-- The primary keys and the unique indexes. -/
structure Pg.Unique (pg : Pg) : Prop where
  providers : pg.providers.Pairwise Provider.Compatible
  users : pg.users.Pairwise User.Compatible
  userProviders : pg.userProviders.Pairwise UserProvider.Compatible
  userAccounts : pg.userAccounts.Pairwise UserAccount.Compatible
  configs : pg.configs.Pairwise UserPriorityConfig.Compatible
  items : pg.items.Pairwise PriorityItemRow.Compatible
  transactions : pg.transactions.Pairwise Transaction.Compatible
  systemAccounts : pg.systemAccounts.Pairwise SystemAccount.Compatible

def Provider.Fits (p : Provider) : Prop := ∀ c ∈ Tx.providerTextChecks p, c.1 = false

def User.Fits (u : User) : Prop :=
  varcharOk 10 u.nid = true ∧ jsonbOk u.internalMetadata.toList = true

def UserProvider.Fits (up : UserProvider) : Prop := jsonbOk up.externalMetadata.toList = true

def UserPriorityConfig.Fits (c : UserPriorityConfig) : Prop := varcharOk 255 c.idempotencyKey = true

def PriorityItemRow.Fits (i : PriorityItemRow) : Prop := 0 < i.priorityOrder ∧ 0 ≤ i.maxAmount

def Transaction.Fits (t : Transaction) : Prop :=
  varcharOk 100 t.idempotencyKey = true ∧ t.description.all textOk = true ∧ 0 < t.amount

def SystemAccount.Fits (a : SystemAccount) : Prop :=
  varcharOk 50 a.code = true ∧ varcharOk 100 a.name = true

/-- The lengths, the texts and the `CHECK`s. -/
structure Pg.Legal (pg : Pg) : Prop where
  providers : ∀ p ∈ pg.providers, p.Fits
  users : ∀ u ∈ pg.users, u.Fits
  userProviders : ∀ up ∈ pg.userProviders, up.Fits
  configs : ∀ c ∈ pg.configs, c.Fits
  items : ∀ i ∈ pg.items, i.Fits
  transactions : ∀ t ∈ pg.transactions, t.Fits
  systemAccounts : ∀ a ∈ pg.systemAccounts, a.Fits

def Pg.HasUser (pg : Pg) (id : Uuid) : Prop := ∃ u ∈ pg.users, u.id = id

def Pg.HasProvider (pg : Pg) (id : Uuid) : Prop := ∃ p ∈ pg.providers, p.id = id

def Pg.HasConfig (pg : Pg) (id : Uuid) : Prop := ∃ c ∈ pg.configs, c.id = id

/-- The foreign keys: what these rows refer to is there. -/
structure Pg.Refers (rows pg : Pg) : Prop where
  userProviders : ∀ up ∈ rows.userProviders, pg.HasUser up.userId ∧ pg.HasProvider up.providerId
  userAccounts : ∀ ua ∈ rows.userAccounts, pg.HasUser ua.userId ∧ pg.HasProvider ua.providerId
  configs : ∀ c ∈ rows.configs, pg.HasUser c.userId
  items : ∀ i ∈ rows.items, pg.HasConfig i.configId ∧ pg.HasProvider i.providerId
  transactions : ∀ t ∈ rows.transactions,
    (∀ u ∈ t.userId, pg.HasUser u) ∧ (∀ p ∈ t.providerId, pg.HasProvider p) ∧
      ∀ parent ∈ t.parentTransactionId, ∃ t' ∈ pg.transactions, t'.id = parent

/-- The constraints of the migration. -/
structure Pg.Valid (pg : Pg) : Prop where
  unique : pg.Unique
  legal : pg.Legal
  refers : pg.Refers pg

theorem Pg.Valid.empty : Pg.empty.Valid := by
  refine ⟨?_, ?_, ?_⟩ <;> constructor <;> simp [Pg.empty]

theorem Pg.Valid.linkPairs {pg : Pg} (h : pg.Valid) :
    (pg.userProviders.map UserProvider.pair).Nodup :=
  List.pairwise_map.mpr (h.unique.userProviders.imp (fun hab => hab.2))

/-! ### Adding and rewriting rows -/

/-- Every row that something can refer to is still there. -/
structure Pg.KeepsKeys (pg pg' : Pg) : Prop where
  users : ∀ id, pg.HasUser id → pg'.HasUser id
  providers : ∀ id, pg.HasProvider id → pg'.HasProvider id
  configs : ∀ id, pg.HasConfig id → pg'.HasConfig id
  transactions : ∀ id, (∃ t ∈ pg.transactions, t.id = id) → ∃ t ∈ pg'.transactions, t.id = id

theorem Pg.KeepsKeys.of_subset {pg pg' : Pg} (hu : pg.users ⊆ pg'.users)
    (hp : pg.providers ⊆ pg'.providers) (hc : pg.configs ⊆ pg'.configs)
    (ht : pg.transactions ⊆ pg'.transactions) : pg.KeepsKeys pg' where
  users := fun _ ⟨u, hmem, hid⟩ => ⟨u, hu hmem, hid⟩
  providers := fun _ ⟨p, hmem, hid⟩ => ⟨p, hp hmem, hid⟩
  configs := fun _ ⟨c, hmem, hid⟩ => ⟨c, hc hmem, hid⟩
  transactions := fun _ ⟨t, hmem, hid⟩ => ⟨t, ht hmem, hid⟩

theorem Pg.Refers.mono {rows pg pg' : Pg} (h : rows.Refers pg) (hk : pg.KeepsKeys pg') :
    rows.Refers pg' where
  userProviders := fun up hup =>
    ⟨hk.users _ (h.userProviders up hup).1, hk.providers _ (h.userProviders up hup).2⟩
  userAccounts := fun ua hua =>
    ⟨hk.users _ (h.userAccounts ua hua).1, hk.providers _ (h.userAccounts ua hua).2⟩
  configs := fun c hc => hk.users _ (h.configs c hc)
  items := fun i hi => ⟨hk.configs _ (h.items i hi).1, hk.providers _ (h.items i hi).2⟩
  transactions := fun t ht => by
    obtain ⟨huser, hprovider, hparent⟩ := h.transactions t ht
    exact ⟨fun u hu => hk.users _ (huser u hu), fun p hp => hk.providers _ (hprovider p hp),
      fun parent hp => hk.transactions _ (hparent parent hp)⟩

section

variable {ρ : Type} {rows : List ρ} {row : ρ} {P : ρ → Prop} {C : ρ → ρ → Prop} {f : ρ → ρ}

theorem pairwise_concat (h : rows.Pairwise C) (hrow : ∀ r ∈ rows, C r row) :
    (rows ++ [row]).Pairwise C := by
  refine List.pairwise_append.mpr ⟨h, List.pairwise_singleton _ _, fun r hr r' hr' => ?_⟩
  rw [List.mem_singleton.mp hr']
  exact hrow r hr

theorem forall_mem_concat (h : ∀ r ∈ rows, P r) (hrow : P row) : ∀ r ∈ rows ++ [row], P r := by
  intro r hr
  rcases List.mem_append.mp hr with hr | hr
  · exact h r hr
  · rw [List.mem_singleton.mp hr]
    exact hrow

theorem forall_mem_rewritten (h : ∀ r ∈ rows, P r) (hf : ∀ r, P r → P (f r)) :
    ∀ r ∈ rows.map f, P r := by
  intro r hr
  obtain ⟨r₀, hr₀, rfl⟩ := List.mem_map.mp hr
  exact hf r₀ (h r₀ hr₀)

theorem exists_mem_rewritten (h : ∃ r ∈ rows, P r) (hf : ∀ r, P r → P (f r)) :
    ∃ r ∈ rows.map f, P r := by
  obtain ⟨r, hr, hp⟩ := h
  exact ⟨f r, List.mem_map_of_mem hr, hf r hp⟩

end

namespace Pg.Valid

variable {pg : Pg} {logs : List AuditLog}

theorem addProvider (h : pg.Valid) {p : Provider} (hfits : p.Fits)
    (hnew : ∀ q ∈ pg.providers, q.Compatible p) :
    (({ pg with providers := pg.providers ++ [p] } : Pg).log logs).Valid where
  unique := { h.unique with providers := pairwise_concat h.unique.providers hnew }
  legal := { h.legal with providers := forall_mem_concat h.legal.providers hfits }
  refers :=
    have hkeeps : pg.KeepsKeys (({ pg with providers := pg.providers ++ [p] } : Pg).log logs) :=
      .of_subset (.refl _) (List.subset_append_left _ _) (.refl _) (.refl _)
    { h.refers.mono hkeeps with }

theorem addUser (h : pg.Valid) {u : User} (hfits : u.Fits)
    (hnew : ∀ v ∈ pg.users, v.Compatible u) :
    (({ pg with users := pg.users ++ [u] } : Pg).log logs).Valid where
  unique := { h.unique with users := pairwise_concat h.unique.users hnew }
  legal := { h.legal with users := forall_mem_concat h.legal.users hfits }
  refers :=
    have hkeeps : pg.KeepsKeys (({ pg with users := pg.users ++ [u] } : Pg).log logs) :=
      .of_subset (List.subset_append_left _ _) (.refl _) (.refl _) (.refl _)
    { h.refers.mono hkeeps with }

theorem addLink (h : pg.Valid) {up : UserProvider} (hfits : up.Fits)
    (hnew : ∀ x ∈ pg.userProviders, x.Compatible up)
    (hrefers : pg.HasUser up.userId ∧ pg.HasProvider up.providerId) :
    (({ pg with userProviders := pg.userProviders ++ [up] } : Pg).log logs).Valid where
  unique := { h.unique with userProviders := pairwise_concat h.unique.userProviders hnew }
  legal := { h.legal with userProviders := forall_mem_concat h.legal.userProviders hfits }
  refers := { h.refers with userProviders := forall_mem_concat h.refers.userProviders hrefers }

theorem addAccount (h : pg.Valid) {ua : UserAccount}
    (hnew : ∀ x ∈ pg.userAccounts, x.Compatible ua)
    (hrefers : pg.HasUser ua.userId ∧ pg.HasProvider ua.providerId) :
    (({ pg with userAccounts := pg.userAccounts ++ [ua] } : Pg).log logs).Valid where
  unique := { h.unique with userAccounts := pairwise_concat h.unique.userAccounts hnew }
  legal := { h.legal with }
  refers := { h.refers with userAccounts := forall_mem_concat h.refers.userAccounts hrefers }

theorem addConfig (h : pg.Valid) {c : UserPriorityConfig} (hfits : c.Fits)
    (hnew : ∀ d ∈ pg.configs, d.Compatible c) (hrefers : pg.HasUser c.userId) :
    (({ pg with configs := pg.configs ++ [c] } : Pg).log logs).Valid where
  unique := { h.unique with configs := pairwise_concat h.unique.configs hnew }
  legal := { h.legal with configs := forall_mem_concat h.legal.configs hfits }
  refers :=
    have hkeeps : pg.KeepsKeys (({ pg with configs := pg.configs ++ [c] } : Pg).log logs) :=
      .of_subset (.refl _) (.refl _) (List.subset_append_left _ _) (.refl _)
    { h.refers.mono hkeeps with configs := forall_mem_concat h.refers.configs hrefers }

theorem addItem (h : pg.Valid) {i : PriorityItemRow} (hfits : i.Fits)
    (hnew : ∀ j ∈ pg.items, j.Compatible i)
    (hrefers : pg.HasConfig i.configId ∧ pg.HasProvider i.providerId) :
    (({ pg with items := pg.items ++ [i] } : Pg).log logs).Valid where
  unique := { h.unique with items := pairwise_concat h.unique.items hnew }
  legal := { h.legal with items := forall_mem_concat h.legal.items hfits }
  refers := { h.refers with items := forall_mem_concat h.refers.items hrefers }

theorem addTransaction (h : pg.Valid) {t : Transaction} (hfits : t.Fits)
    (hnew : ∀ x ∈ pg.transactions, x.Compatible t) (huser : ∀ u ∈ t.userId, pg.HasUser u)
    (hprovider : ∀ p ∈ t.providerId, pg.HasProvider p) (hparent : t.parentTransactionId = none) :
    (({ pg with transactions := pg.transactions ++ [t] } : Pg).log logs).Valid where
  unique := { h.unique with transactions := pairwise_concat h.unique.transactions hnew }
  legal := { h.legal with transactions := forall_mem_concat h.legal.transactions hfits }
  refers :=
    have hkeeps : pg.KeepsKeys (({ pg with transactions := pg.transactions ++ [t] } : Pg).log logs) :=
      .of_subset (.refl _) (.refl _) (.refl _) (List.subset_append_left _ _)
    have hmono := h.refers.mono hkeeps
    { hmono with
      transactions := forall_mem_concat hmono.transactions
        ⟨huser, hprovider, fun parent hp => by rw [hparent] at hp; cases hp⟩ }

theorem addSystemAccount (h : pg.Valid) {a : SystemAccount} (hfits : a.Fits)
    (hnew : ∀ b ∈ pg.systemAccounts, b.Compatible a) :
    (({ pg with systemAccounts := pg.systemAccounts ++ [a] } : Pg).log logs).Valid where
  unique := { h.unique with systemAccounts := pairwise_concat h.unique.systemAccounts hnew }
  legal := { h.legal with systemAccounts := forall_mem_concat h.legal.systemAccounts hfits }
  refers := { h.refers with }

/-- An `UPDATE` of links that keeps their keys. -/
theorem rewriteLinks (h : pg.Valid) {f : UserProvider → UserProvider}
    (hid : ∀ up, (f up).id = up.id) (hpair : ∀ up, (f up).pair = up.pair)
    (hfits : ∀ up, up.Fits → (f up).Fits) :
    (({ pg with userProviders := pg.userProviders.map f } : Pg).log logs).Valid where
  unique :=
    { h.unique with
      userProviders := h.unique.userProviders.map f (fun a b hab => by
        unfold UserProvider.Compatible
        rw [hid, hid, hpair, hpair]
        exact hab) }
  legal := { h.legal with userProviders := forall_mem_rewritten h.legal.userProviders hfits }
  refers :=
    { h.refers with
      userProviders := forall_mem_rewritten h.refers.userProviders (fun up hup => by
        obtain ⟨huser, hprovider⟩ := Prod.mk.inj (hpair up)
        rw [huser, hprovider]
        exact hup) }

/-- An `UPDATE` of configurations that can only take them out of force. -/
theorem rewriteConfigs (h : pg.Valid) {f : UserPriorityConfig → UserPriorityConfig}
    (hid : ∀ c, (f c).id = c.id) (hkey : ∀ c, (f c).idempotencyKey = c.idempotencyKey)
    (huser : ∀ c, (f c).userId = c.userId) (hactive : ∀ c, (f c).status = .active → c.status = .active) :
    (({ pg with configs := pg.configs.map f } : Pg).log logs).Valid where
  unique :=
    { h.unique with
      configs := h.unique.configs.map f (fun a b hab => by
        unfold UserPriorityConfig.Compatible
        rw [hid, hid, hkey, hkey, huser, huser]
        exact ⟨hab.1, hab.2.1, fun hsame ha hb => hab.2.2 hsame (hactive a ha) (hactive b hb)⟩) }
  legal :=
    { h.legal with
      configs := forall_mem_rewritten h.legal.configs (fun c hc => by
        unfold UserPriorityConfig.Fits
        rw [hkey]
        exact hc) }
  refers :=
    have hkeeps : pg.KeepsKeys (({ pg with configs := pg.configs.map f } : Pg).log logs) :=
      { users := fun _ h => h
        providers := fun _ h => h
        configs := fun id hc => exists_mem_rewritten hc (fun c heq => (hid c).trans heq)
        transactions := fun _ h => h }
    { h.refers.mono hkeeps with
      configs := forall_mem_rewritten h.refers.configs (fun c hc => by
        rw [huser]
        exact hc) }

/-- An `UPDATE` of items that keeps what the constraints are about. -/
theorem rewriteItems (h : pg.Valid) {f : PriorityItemRow → PriorityItemRow}
    (hf : ∀ i, (f i).unmarked = i.unmarked) :
    (({ pg with items := pg.items.map f } : Pg).log logs).Valid := by
  have hcolumn : ∀ {β : Type} (g : PriorityItemRow → β), (∀ i, g i.unmarked = g i) →
      ∀ i, g (f i) = g i := fun g hg i => by rw [← hg (f i), hf, hg]
  have hid : ∀ i, (f i).id = i.id := hcolumn (·.id) (fun _ => rfl)
  have hconfig : ∀ i, (f i).configId = i.configId := hcolumn (·.configId) (fun _ => rfl)
  have hprovider : ∀ i, (f i).providerId = i.providerId := hcolumn (·.providerId) (fun _ => rfl)
  have horder : ∀ i, (f i).priorityOrder = i.priorityOrder := hcolumn (·.priorityOrder) (fun _ => rfl)
  have hamount : ∀ i, (f i).maxAmount = i.maxAmount := hcolumn (·.maxAmount) (fun _ => rfl)
  refine ⟨{ h.unique with items := h.unique.items.map f (fun a b hab => ?_) },
    { h.legal with items := forall_mem_rewritten h.legal.items (fun i hi => ?_) },
    { h.refers with items := forall_mem_rewritten h.refers.items (fun i hi => ?_) }⟩
  · unfold PriorityItemRow.Compatible
    rw [hid, hid, hconfig, hconfig, hprovider, hprovider, horder, horder]
    exact hab
  · unfold PriorityItemRow.Fits
    rw [horder, hamount]
    exact hi
  · rw [hconfig, hprovider]
    exact hi

end Pg.Valid

/-! ### Every statement keeps them -/

/-- A write keeps the constraints if it does where its checks pass. -/
theorem Tx.write_valid {α : Type} {t : Tx} {checks : List (Bool × SqlError)} {row : α}
    {upd : Pg → Pg} {logs : Uuid → List AuditLog} (hv : t.pg.Valid)
    (hupd : (∀ c ∈ checks, c.1 = false) → ∀ rows, ((upd t.pg).log rows).Valid) :
    (t.write checks row upd logs).2.pg.Valid := by
  cases hwrite : t.write checks row upd logs with
  | mk r t' =>
      rcases write_cases hwrite with ⟨e, -, rfl⟩ | ⟨actor, -, -, hchecks, rfl⟩
      · exact hv
      · exact hupd hchecks _

theorem Tx.update_valid {α : Type} {t : Tx} {table : String} {touched : List Uuid} {row : α}
    {upd : Pg → Pg} (hv : t.pg.Valid) (hupd : ∀ rows, ((upd t.pg).log rows).Valid) :
    (t.update table touched row upd).2.pg.Valid := by
  unfold update
  split
  · exact hv
  · exact write_valid hv (fun _ => hupd)

section

variable {t : Tx}

theorem Tx.insertProvider_valid (hv : t.pg.Valid) (p : Provider) :
    (t.insertProvider p).2.pg.Valid := by
  refine write_valid hv (fun hc logs => ?_)
  simp only [List.forall_mem_append, List.forall_mem_cons, List.any_eq_false, decide_eq_true_eq,
    Bool.and_eq_false_imp] at hc
  obtain ⟨hfits, hid, hledger, hcore, -⟩ := hc
  refine hv.addProvider hfits (fun q hq => ⟨hid q hq, hledger q hq, fun hq' => ?_⟩)
  by_contra hp
  have hnone := hcore (Bool.eq_true_of_not_eq_false hp) q hq
  exact hnone hq'

theorem Tx.insertUser_valid (hv : t.pg.Valid) (id : Uuid) (nid : String) (metadata : Json) :
    (t.insertUser id nid metadata).2.pg.Valid := by
  refine write_valid hv (fun hc logs => ?_)
  simp only [List.forall_mem_cons, List.any_eq_false, Bool.not_eq_false', decide_eq_true_eq] at hc
  obtain ⟨hnid, hjson, hfresh, hfree, -⟩ := hc
  exact hv.addUser ⟨hnid, hjson⟩ (fun v hv => ⟨hfresh v hv, hfree v hv⟩)

theorem Tx.upsertUserProvider_valid (hv : t.pg.Valid) (userId providerId : Uuid)
    (metadata : Json) : (t.upsertUserProvider userId providerId metadata).2.pg.Valid := by
  simp only [upsertUserProvider]
  split
  · refine write_valid hv (fun hc logs => ?_)
    simp only [List.forall_mem_cons, Bool.not_eq_false'] at hc
    refine hv.rewriteLinks (fun up => ?_) (fun up => ?_) (fun up hup => ?_)
    · split <;> rfl
    · split <;> rfl
    · split
      · exact hc.1
      · exact hup
  · next hnone =>
      refine write_valid (t := t.draw) hv (fun hc logs => ?_)
      simp only [List.forall_mem_cons, List.any_eq_false, Bool.not_eq_false', List.any_eq_true,
        decide_eq_true_eq] at hc
      obtain ⟨hjson, hid, huser, hprovider, -⟩ := hc
      refine hv.addLink hjson (fun x hx => ⟨hid x hx, fun hpair => ?_⟩) ⟨huser, hprovider⟩
      obtain ⟨hu, hp⟩ := Prod.mk.inj hpair
      have hmiss := List.find?_eq_none.mp hnone x hx
      simp [hu, hp] at hmiss

theorem Tx.insertUserAccount_valid (hv : t.pg.Valid) (id userId providerId lid : Uuid) :
    (t.insertUserAccount id userId providerId lid).2.pg.Valid := by
  refine write_valid hv (fun hc logs => ?_)
  simp only [List.forall_mem_cons, List.any_eq_false, Bool.not_eq_false', List.any_eq_true,
    decide_eq_true_eq] at hc
  obtain ⟨hid, hledger, hpair, huser, hprovider, -⟩ := hc
  refine hv.addAccount (fun x hx => ⟨hid x hx, hledger x hx, fun heq => ?_⟩) ⟨huser, hprovider⟩
  exact hpair x hx (Prod.mk.inj heq)

theorem Tx.insertTransaction_valid (hv : t.pg.Valid) (new : NewTransaction) :
    (t.insertTransaction new).2.pg.Valid := by
  refine write_valid hv (fun hc logs => ?_)
  obtain ⟨hkey, hdesc, hamount, hid, hfree, huser, hprovider⟩ := transactionChecks_iff.mp hc
  refine hv.addTransaction ⟨hkey, hdesc, hamount⟩ (fun x hx => ⟨hid x hx, hfree x hx⟩)
    (fun u hu => ?_) (fun p hp => ?_) rfl
  · obtain rfl := Option.some.inj hu
    exact huser
  · obtain rfl := Option.some.inj hp
    exact hprovider

theorem Tx.cancelActiveConfig_valid (hv : t.pg.Valid) (userId : Uuid) :
    (t.cancelActiveConfig userId).2.pg.Valid := by
  refine update_valid hv (fun rows => ?_)
  refine hv.rewriteConfigs (fun c => ?_) (fun c => ?_) (fun c => ?_) (fun c hc => ?_)
  · split <;> rfl
  · split <;> rfl
  · split <;> rfl
  · split at hc
    · cases hc
    · exact hc

theorem Tx.insertConfig_valid (hv : t.pg.Valid) (userId : Uuid) (key : String)
    (expiresAt : Option Timestamp) : (t.insertConfig userId key expiresAt).2.pg.Valid := by
  refine write_valid (t := t.draw) hv (fun hc logs => ?_)
  simp only [List.forall_mem_cons, List.any_eq_false, Bool.not_eq_false', List.any_eq_true,
    decide_eq_true_eq] at hc
  obtain ⟨-, hkey, hid, hfree, hactive, huser, -⟩ := hc
  refine hv.addConfig hkey (fun d hd => ⟨hid d hd, hfree d hd, fun hsame ha => ?_⟩) huser
  exact absurd ⟨hsame, ha⟩ (hactive d hd)

theorem Tx.insertItem_valid (hv : t.pg.Valid) (new : NewPriorityItem) :
    (t.insertItem new).2.pg.Valid := by
  refine write_valid (t := t.draw) hv (fun hc logs => ?_)
  simp only [List.forall_mem_cons, List.any_eq_false, Bool.not_eq_false', List.any_eq_true,
    decide_eq_true_eq, decide_eq_false_iff_not, not_le, not_lt] at hc
  obtain ⟨horder, hamount, hid, hprovider, hplace, hconfig, hknown, -⟩ := hc
  refine hv.addItem ⟨horder, hamount⟩ (fun j hj => ⟨hid j hj, fun hsame => ?_⟩) ⟨hconfig, hknown⟩
  exact ⟨fun heq => hprovider j hj ⟨hsame, heq⟩, fun heq => hplace j hj ⟨hsame, heq⟩⟩

theorem Tx.softDeleteItems_valid (hv : t.pg.Valid) (configId : Uuid) :
    (t.softDeleteItems configId).2.pg.Valid := by
  refine update_valid hv (fun rows => hv.rewriteItems (fun i => ?_))
  split <;> rfl

theorem Tx.softDeleteConfig_valid (hv : t.pg.Valid) (configId : Uuid) :
    (t.softDeleteConfig configId).2.pg.Valid := by
  refine update_valid hv (fun rows => ?_)
  refine hv.rewriteConfigs (fun c => ?_) (fun c => ?_) (fun c => ?_) (fun c hc => ?_)
  · split <;> rfl
  · split <;> rfl
  · split <;> rfl
  · split at hc
    · exact hc
    · exact hc

theorem Tx.insertSystemAccount_valid (hv : t.pg.Valid) (code name : String)
    (category : SystemAccountCategory) (lid : Uuid) :
    (t.insertSystemAccount code name category lid).2.pg.Valid := by
  unfold insertSystemAccount
  split
  · exact hv
  · next hfree =>
      refine write_valid (t := t.draw) hv (fun hc logs => ?_)
      simp only [List.forall_mem_cons, List.any_eq_false, Bool.not_eq_false', decide_eq_true_eq] at hc
      obtain ⟨hcode, hname, hid, hledger, -⟩ := hc
      refine hv.addSystemAccount ⟨hcode, hname⟩ (fun b hb => ⟨hid b hb, fun heq => ?_, hledger b hb⟩)
      exact hfree (List.any_eq_true.mpr ⟨b, hb, decide_eq_true heq⟩)

/-- **Every statement keeps the constraints**, of what is committed and of what the
transaction sees. -/
theorem Sql.exec_valid {s : Sql} (hbase : t.base.Valid) (hv : t.pg.Valid) :
    (Sql.exec s t).2.base.Valid ∧ (Sql.exec s t).2.pg.Valid := by
  by_cases hcommit : s = .commit
  · subst hcommit
    exact ⟨hv, hv⟩
  refine ⟨?_, ?_⟩
  · rw [Sql.exec_base hcommit]
    exact hbase
  · cases s with
    | rollback => exact hbase
    | insertProvider p => exact Tx.insertProvider_valid hv p
    | insertUser id nid metadata => exact Tx.insertUser_valid hv id nid metadata
    | upsertUserProvider u p metadata => exact Tx.upsertUserProvider_valid hv u p metadata
    | insertUserAccount id u p l => exact Tx.insertUserAccount_valid hv id u p l
    | insertTransaction new => exact Tx.insertTransaction_valid hv new
    | cancelActiveConfig u => exact Tx.cancelActiveConfig_valid hv u
    | insertConfig u key expiresAt => exact Tx.insertConfig_valid hv u key expiresAt
    | insertItem new => exact Tx.insertItem_valid hv new
    | softDeleteItems configId => exact Tx.softDeleteItems_valid hv configId
    | softDeleteConfig configId => exact Tx.softDeleteConfig_valid hv configId
    | insertSystemAccount code name category l =>
        exact Tx.insertSystemAccount_valid hv code name category l
    | commit => exact absurd rfl hcommit
    | _ => exact hv

end

/-- **Every method keeps the constraints.** -/
theorem Repo.transact_valid {α : Type} {pg : Pg} (hv : pg.Valid) (body : Repo α) (now : Timestamp)
    (uuid : Nat → Uuid) : (body.transact pg now uuid).2.1.Valid := by
  have hrun : (Prog.run Sql.exec body.run (Tx.begin pg now uuid)).2.base.Valid ∧
      (Prog.run Sql.exec body.run (Tx.begin pg now uuid)).2.pg.Valid :=
    Prog.run_induction (motive := fun t : Tx => t.base.Valid ∧ t.pg.Valid)
      (fun e t ht => Sql.exec_valid (s := e) ht.1 ht.2) body.run ⟨hv, hv⟩
  exact hrun.1

end Wurzburg.Db
