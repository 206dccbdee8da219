import Wurzburg.Db.Lifecycle

/-!
# Wurzburg.Db.UserView

What the database holds about one user (`Pg.viewOf`), and which changes leave it alone: those
to rows of other users, whoever asks for them. Rows of one user hang together by keys that
are not all declared in the schema, so the view lists them table by table.
-/

namespace Wurzburg.Db

open Wurzburg.Lib

/-- All that the database holds about a user. -/
structure UserView where
  user : List User
  links : List UserProvider
  accounts : List UserAccount
  journal : List Transaction
  configs : List UserPriorityConfig
  items : List PriorityItemRow
  deriving DecidableEq, Repr

def Pg.configRows (pg : Pg) (u : Uuid) : List UserPriorityConfig :=
  pg.configs.filter (fun c => c.userId = u)

def Pg.viewOf (pg : Pg) (u : Uuid) : UserView where
  user := pg.users.filter (fun x => x.id = u)
  links := pg.userProviders.filter (fun up => up.userId = u)
  accounts := pg.userAccounts.filter (fun ua => ua.userId = u)
  journal := pg.transactions.filter (fun row => row.userId = some u)
  configs := pg.configRows u
  items := pg.items.filter (fun i => (pg.configRows u).any (fun c => c.id = i.configId))

section

variable {pg pg' : Pg} {u v : Uuid}

/-- A row of another user is not in the view. -/
theorem filter_concat_of_not {α : Type} {p : α → Bool} (xs : List α) {x : α} (h : p x = false) :
    (xs ++ [x]).filter p = xs.filter p := by
  rw [List.filter_append, List.filter_cons_of_neg (by simp [h]), List.filter_nil, List.append_nil]

theorem filter_map_of_fixed {α : Type} {p : α → Bool} {f : α → α} (xs : List α)
    (hp : ∀ x, p (f x) = p x) (hf : ∀ x, p x = true → f x = x) :
    (xs.map f).filter p = xs.filter p := by
  rw [List.filter_map]
  have hcomp : p ∘ f = p := funext hp
  rw [hcomp]
  conv_rhs => rw [← List.map_id (xs.filter p)]
  exact List.map_congr_left (fun x hx => hf x (List.mem_filter.mp hx).2)

theorem Pg.viewOf_congr (h : Pg.SameCore pg pg') (hconfigs : pg'.configRows u = pg.configRows u)
    (hitems : (pg'.viewOf u).items = (pg.viewOf u).items) : pg'.viewOf u = pg.viewOf u := by
  unfold viewOf at hitems ⊢
  simp only at hitems
  rw [h.users, h.userProviders, h.userAccounts, h.transactions, hitems, hconfigs]

/-- What leaves both halves alone leaves the view alone. -/
theorem Pg.viewOf_same (h : Pg.SameCore pg pg') (hk : KeepsPriorities pg pg') :
    pg'.viewOf u = pg.viewOf u := by
  have hconfigs : pg'.configRows u = pg.configRows u := by
    unfold configRows
    rw [hk.configs]
  refine viewOf_congr h hconfigs ?_
  unfold viewOf
  rw [hconfigs, hk.items]

theorem Pg.viewOf_record {actor : Uuid} {row : Transaction} (h : row.userId ≠ some u) :
    (pg.record actor row).viewOf u = pg.viewOf u := by
  have hjournal : (pg.record actor row).transactions.filter (fun row => row.userId = some u) =
      pg.transactions.filter (fun row => row.userId = some u) :=
    filter_concat_of_not pg.transactions (decide_eq_false h)
  unfold viewOf
  rw [hjournal]
  rfl

theorem Pg.configRows_cancelActive {actor : Uuid} {now : Timestamp} (h : v ≠ u) :
    (pg.cancelActive v actor now).configRows u = pg.configRows u := by
  unfold configRows
  rw [cancelActive_configs]
  refine filter_map_of_fixed pg.configs (fun c => ?_) (fun c hc => ?_)
  · rw [(c.later_afterCancel v now).row]
  · unfold UserPriorityConfig.afterCancel
    rw [if_neg]
    intro hcurrent
    unfold isCurrent at hcurrent
    have hv : c.userId = v := by simp at hcurrent; exact hcurrent.1
    exact h (hv.symm.trans (of_decide_eq_true hc))

/-- Cancelling another user's priority. -/
theorem Pg.viewOf_cancelActive {actor : Uuid} {now : Timestamp} (h : v ≠ u) :
    (pg.cancelActive v actor now).viewOf u = pg.viewOf u := by
  refine viewOf_congr (cancelActive_sameCore pg v actor now) (configRows_cancelActive h) ?_
  unfold viewOf
  rw [configRows_cancelActive h, cancelActive_items]

/-- Creating a priority of another user. -/
theorem Pg.viewOf_addPriority {now : Timestamp} {uuid : Nat → Uuid} {key : String} {actor : Uuid}
    {items : List PriorityItemData} {expiresAt : Option Timestamp} (h : v ≠ u)
    (hcore : Pg.SameCore pg (pg.addPriority now uuid key v actor items expiresAt))
    (hadm : pg.AdmitsPriority now uuid key v actor items expiresAt) :
    (pg.addPriority now uuid key v actor items expiresAt).viewOf u = pg.viewOf u := by
  have hconfigs : (pg.addPriority now uuid key v actor items expiresAt).configRows u =
      pg.configRows u := by
    refine Eq.trans ?_ (@configRows_cancelActive pg u v actor now h)
    unfold configRows
    rw [show (pg.addPriority now uuid key v actor items expiresAt).configs = _ from
      withPriority_configs ..]
    exact filter_concat_of_not _ (decide_eq_false h)
  refine viewOf_congr hcore hconfigs ?_
  unfold viewOf
  -- the new items are of the new configuration, which is none of the user's
  have hnew : (itemRows (uuid 0) now uuid 0 items).filter
      (fun i => (pg.configRows u).any (fun c => c.id = i.configId)) = [] := by
    refine List.filter_eq_nil_iff.mpr (fun i hi hany => ?_)
    obtain ⟨c, hc, hid⟩ := List.any_eq_true.mp hany
    rw [← @configRows_cancelActive pg u v actor now h] at hc
    refine hadm.config.newId c (List.mem_filter.mp hc).1 ?_
    exact (of_decide_eq_true hid).trans (mem_itemRows hi).1
  rw [hconfigs, show (pg.addPriority now uuid key v actor items expiresAt).items = _ from
    withPriority_items .., List.filter_append, hnew, List.append_nil, cancelActive_items]

/-- Rows of the keys that are there already stay the only ones under them. -/
theorem filter_prefix_of_nodup {α κ : Type} [DecidableEq κ] {f : α → κ} {xs ys : List α} {k : κ}
    (h : xs <+: ys) (hnodup : (ys.map f).Nodup) (hk : k ∈ xs.map f) :
    ys.filter (fun y => f y = k) = xs.filter (fun x => f x = k) := by
  obtain ⟨zs, rfl⟩ := h
  rw [List.map_append, List.nodup_append] at hnodup
  have hnone : zs.filter (fun z => f z = k) = [] :=
    List.filter_eq_nil_iff.mpr (fun z hz heq =>
      hnodup.2.2 k hk (f z) (List.mem_map_of_mem hz) (of_decide_eq_true heq).symm)
  rw [List.filter_append, hnone, List.append_nil]

/-- The upsert of another user's link. -/
theorem Tx.upsertUserProvider_links {t t' : Tx} {p : Uuid} {metadata : Json} {r : Except SqlError Unit}
    (h : v ≠ u) (hx : t.upsertUserProvider v p metadata = (r, t')) :
    t'.pg.userProviders.filter (fun up => up.userId = u) =
      t.pg.userProviders.filter (fun up => up.userId = u) := by
  simp only [Tx.upsertUserProvider] at hx
  split at hx
  · next row hrow =>
      rcases Tx.write_cases hx with ⟨e, rfl, rfl⟩ | ⟨actor, rfl, -, -, rfl⟩
      · rfl
      · refine filter_map_of_fixed t.pg.userProviders (fun up => ?_) (fun up hup => ?_)
        · split <;> rfl
        · rw [if_neg]
          intro hlink
          have hv : up.userId = v := (of_decide_eq_true hlink).1
          exact h (hv.symm.trans (of_decide_eq_true hup))
  · rcases Tx.write_cases hx with ⟨e, rfl, rfl⟩ | ⟨actor, rfl, -, -, rfl⟩
    · rfl
    · exact filter_concat_of_not t.pg.userProviders (decide_eq_false h)

/-- Who is linked to whom, but for the user that was found or created. -/
theorem createOrLinkUser_links {nid : String} {p lid actor : Uuid} {im em : Json} {now : Timestamp}
    {uuid : Nat → Uuid} {user : User} {account : UserAccount} {n : Nat}
    (h : (createOrLinkUser nid p im em lid actor).transact pg now uuid =
      (.ok (user, account), pg', n)) (hu : user.id ≠ u) :
    pg'.userProviders.filter (fun up => up.userId = u) =
      pg.userProviders.filter (fun up => up.userId = u) := by
  obtain ⟨t, hx, rfl, rfl⟩ := Repo.transact_cases h
  rcases Repo.exec_bind_cases hx with ⟨e, -, herr⟩ | ⟨⟨⟩, t₀, hset, hx⟩
  · cases herr
  rw [Repo.exec_query] at hset
  obtain ⟨-, rfl⟩ := Prod.mk.inj hset
  rcases Repo.exec_bind_cases hx with ⟨e, -, herr⟩ | ⟨found, t₁, huser, hx⟩
  · cases herr
  rcases Repo.exec_bind_cases hx with ⟨e, -, herr⟩ | ⟨⟨⟩, t₂, hlink, hx⟩
  · cases herr
  rcases Repo.exec_bind_cases hx with ⟨e, -, herr⟩ | ⟨account', t₃, hacc, hx⟩
  · cases herr
  obtain ⟨hok, rfl⟩ := Prod.mk.inj hx
  obtain ⟨rfl, rfl⟩ := Prod.mk.inj (Except.ok.inj hok)
  rcases Repo.exec_query_cases hlink with ⟨_, -, herr⟩ | ⟨⟨⟩, hlink, -⟩
  · cases herr
  have hfound : t₁.pg.userProviders = pg.userProviders := by
    cases (findOrCreateUser_spec huser).2 _ rfl with
    | old _ _ heq => rw [heq]; rfl
    | new _ _ _ _ _ heq => rw [heq]; rfl
  have haccount : t₃.pg.userProviders = t₂.pg.userProviders := by
    cases (findOrCreateAccount_spec hacc).2 _ rfl with
    | old _ _ heq => rw [heq]
    | new _ _ _ _ _ _ _ heq => rw [heq]; rfl
  show t₃.pg.userProviders.filter _ = _
  rw [haccount, Tx.upsertUserProvider_links hu hlink, hfound]

/-- At most one account comes, the one that is returned. -/
theorem Linked.accounts {nid : String} {p lid : Uuid} {now : Timestamp} {user : User}
    {account : UserAccount} (hl : Linked pg pg' nid p lid now user account) :
    pg'.userAccounts = pg.userAccounts ∨ pg'.userAccounts = pg.userAccounts ++ [account] := by
  obtain ⟨pg₁, pg₂, huser, hlink, haccount⟩ := hl.steps
  have h₁ : pg₁.userAccounts = pg.userAccounts := by
    cases huser with
    | old _ _ heq => rw [heq]
    | new _ _ _ _ _ heq => rw [heq]; rfl
  have h₂ : pg₂.userAccounts = pg₁.userAccounts := by
    cases hlink with
    | old _ _ _ _ heq => rw [heq]; rfl
    | new _ _ _ _ _ _ heq => rw [heq]; rfl
  cases haccount with
  | old _ _ heq =>
      rw [heq]
      exact Or.inl (h₂.trans h₁)
  | new _ _ _ _ _ _ _ heq =>
      refine Or.inr ?_
      rw [heq, ← h₁, ← h₂]
      rfl

/-- Linking another user. -/
theorem viewOf_createOrLinkUser {nid : String} {p lid actor : Uuid} {im em : Json} {now : Timestamp}
    {uuid : Nat → Uuid} {r : Except RepoError (User × UserAccount)} {n : Nat} (ht : Tables pg)
    (hu : ∃ x ∈ pg.users, x.id = u ∧ x.nid ≠ nid)
    (h : (createOrLinkUser nid p im em lid actor).transact pg now uuid = (r, pg', n))
    (hk : KeepsPriorities pg pg') : pg'.viewOf u = pg.viewOf u := by
  obtain ⟨x, hx, rfl, hnid⟩ := hu
  rcases createOrLinkUser_spec h with ⟨e, -, rfl⟩ | ⟨user, account, rfl, hl⟩
  · rfl
  -- the user found or created is another one
  obtain ⟨-, -, haccount⟩ := hl.names
  obtain ⟨hg, -, htx, -, -⟩ := hl.grows
  have ht' := ht.linked hl
  have hne : user.id ≠ x.id := by
    obtain ⟨pg₁, pg₂, huser, -, -⟩ := hl.steps
    intro heq
    cases huser with
    | old hmem hunid _ => exact hnid (List.inj_on_of_nodup_map ht.userIds hmem hx heq ▸ hunid)
    | new logs hfree _ _ _ _ => exact (hfree x hx).1 heq.symm
  have hlinks : pg'.userProviders.filter (fun up => up.userId = x.id) =
      pg.userProviders.filter (fun up => up.userId = x.id) := createOrLinkUser_links h hne
  have haccounts : pg'.userAccounts.filter (fun ua => ua.userId = x.id) =
      pg.userAccounts.filter (fun ua => ua.userId = x.id) := by
    rcases hl.accounts with heq | heq
    · rw [heq]
    · rw [heq]
      refine filter_concat_of_not pg.userAccounts (decide_eq_false ?_)
      rw [show account.userId = user.id from (Prod.mk.inj haccount).1]
      exact hne
  have hconfigs : pg'.configRows x.id = pg.configRows x.id := by
    unfold Pg.configRows
    rw [hk.configs]
  unfold Pg.viewOf
  rw [filter_prefix_of_nodup hg.users ht'.userIds (List.mem_map_of_mem hx), hlinks, haccounts, htx,
    hconfigs, hk.items]

end

end Wurzburg.Db
