import AddressSpace.Proofs.Document.Wording

/-!
Where the issues of a pool document lie. All issues are found, pool by pool and item by item, and each lies
under the item that it is about: no two have the same path, and an item that is put right takes its own
issues with it and no others.
-/

namespace AddressSpace.Document

-- An issue of a part of a document, seen from the document.
def Issue.behind (place : List Step) (i : Issue) : Issue :=
  { i with path := place ++ i.path }

-- The issues of a list's items, in order, from an index on.
def itemIssues (name : String) (index : Nat) (items : List Json) : List Issue :=
  (items.zipIdx index).flatMap fun (v, k) => (Range.ofJson v).issues.map (·.behind [.key name, .item k])

def listIssues (name : String) : Json → List Issue
  | .arr items => itemIssues name 0 items
  | _ => [⟨[.key name], .notList⟩]

-- The name under which an object gives the list of a pool.
def nameIn (members : List (Text × Json)) (n : PoolName) : String :=
  if (Json.find? n.key members).isSome then n.key else n.option

def poolIssues (members : List (Text × Json)) (n : PoolName) : List Issue :=
  match member? members n with
  | none => []
  | some v => listIssues (nameIn members n) v

-- All issues of an object, pool by pool.
def issuesOf (members : List (Text × Json)) : List Issue :=
  PoolName.all.flatMap (poolIssues members)

-- What is at fault is not a bound, but two bounds that were read.
inductive Cause.Between : Cause → Prop
  | mixed {first last f g} : Between (.bounds (.mixed first last f g))
  | reversed {first last} : Between (.bounds (.reversed first last))

-- What a check found is what its caller is told, unless an issue cannot be put into words.
structure Told {α : Type} (answer : Except Refusal α) (found : List Issue) : Prop where
  accepted   : (∃ a, answer = .ok a) ↔ found = []
  refused    : ∀ is, answer = .error (.issues is) ↔ is = found ∧ found ≠ [] ∧ ∀ i ∈ found, i.Writable
  unwritable : (∃ f, answer = .error (.unwritable f)) ↔ ∃ i ∈ found, ¬ i.Writable

variable {members : List (Text × Json)} {items : List Json} {v : Json} {n m : PoolName} {name : String}
variable {index k : Nat} {w : Json}

/-! ### The issues of checks that are put together -/

namespace Checked

variable {α β γ : Type} {c : Checked α} {d : Checked β} {f : α → β → γ} {step : Step} {cause : Cause}

@[simp]
theorem issues_fail : (fail cause : Checked α).issues = [⟨[], cause⟩] :=
  rfl

@[simp]
theorem issues_under : (c.under step).issues = c.issues.map (·.under step) := by
  cases c <;> rfl

@[simp]
theorem issues_both : (both f c d).issues = c.issues ++ d.issues := by
  cases c <;> cases d <;> simp [both, issues]

-- A check that fails has found an issue.
def Founded (c : Checked α) : Prop :=
  c ≠ .error []

theorem Founded.ok (a : α) : Founded (.ok a) :=
  nofun

theorem Founded.fail : Founded (Checked.fail cause : Checked α) :=
  nofun

theorem Founded.under (h : c.Founded) (step : Step) : (c.under step).Founded := by
  cases c
  case ok       => exact h
  case error is => simpa [Founded, Checked.under] using h

theorem Founded.both (hc : c.Founded) (hd : d.Founded) (f : α → β → γ) : (both f c d).Founded := by
  cases c <;> cases d
  case ok.ok       => exact nofun
  case ok.error    => simpa [Founded, Checked.both] using hd
  case error.ok    => simpa [Founded, Checked.both] using hc
  case error.error => simp_all [Founded, Checked.both]

theorem Founded.told (h : c.Founded) : Told (c.mapError .ofIssues) c.issues := by
  cases c
  case ok a => exact ⟨by simp [issues], by simp [issues], by simp [issues]⟩
  case error is =>
    have hn : is ≠ [] := by simpa [Founded] using h
    simp only [Outcome.mapError_error, issues]
    rcases Refusal.ofIssues_cases is with ⟨he, hw⟩ | ⟨⟨f, he⟩, hu⟩
    · refine ⟨by simp [hn], fun js => ?_, ?_⟩
      · simp only [he, Except.error.injEq, Refusal.issues.injEq]
        exact ⟨fun hj => ⟨hj.symm, hn, hw⟩, fun hj => hj.left.symm⟩
      · simpa [he] using hw
    · refine ⟨by simp [hn], fun js => ?_, ?_⟩
      · simp only [he, Except.error.injEq, reduceCtorEq, false_iff, not_and]
        exact fun _ _ ha => hu.elim fun i hi => hi.right (ha i hi.left)
      · simpa [he] using hu

end Checked

/-! ### The issues of a range -/

theorem founded_bound (name : String) (members : List (Text × Json)) : (bound name members).Founded := by
  refine Checked.Founded.under ?_ _
  split
  case h_2 => split <;> first | exact .ok _ | exact .fail
  all_goals exact .fail

theorem founded_ordered (first last : Text × Host) : (ordered first last).Founded := by
  simp only [ordered]
  repeat' split
  all_goals first | exact .ok _ | exact .fail

theorem founded_range (v : Json) : (Range.ofJson v).Founded := by
  cases v
  case obj members =>
    have hb := (founded_bound "start" members).both (founded_bound "end" members) Prod.mk
    rw [Range.ofJson]
    cases h : Checked.both Prod.mk (bound "start" members) (bound "end" members)
    case ok bounds => exact founded_ordered bounds.1 bounds.2
    case error is  =>
      rw [h] at hb
      simpa [Checked.Founded] using hb
  all_goals exact .fail

theorem founded_rangesFrom (index : Nat) (items : List Json) : (rangesFrom index items).Founded := by
  induction items generalizing index
  case nil            => exact .ok _
  case cons v items hi => exact ((founded_range v).under _).both (hi _) _

theorem founded_rangesOf (members : List (Text × Json)) (n : PoolName) : (rangesOf members n).Founded := by
  simp only [rangesOf]
  split
  case h_1 => exact .ok _
  case h_2 => exact (founded_rangesFrom _ _).under _
  case h_3 => exact Checked.Founded.fail.under _

theorem itemIssues_cons : itemIssues name index (v :: items) =
    (Range.ofJson v).issues.map (·.behind [.key name, .item index]) ++ itemIssues name (index + 1) items :=
  rfl

theorem itemIssues_append {items' : List Json} : itemIssues name index (items ++ items') =
    itemIssues name index items ++ itemIssues name (index + items.length) items' := by
  simp [itemIssues, List.zipIdx_append]

theorem issues_rangesFrom (name : String) (index : Nat) (items : List Json) :
    (rangesFrom index items).issues.map (·.under (.key name)) = itemIssues name index items := by
  induction items generalizing index
  case nil             => rfl
  case cons v items hi => simp [rangesFrom, itemIssues_cons, ← hi, Issue.under, Issue.behind]

theorem issues_rangesOf (members : List (Text × Json)) (n : PoolName) :
    (rangesOf members n).issues = poolIssues members n := by
  simp only [rangesOf, poolIssues, member?, nameIn]
  cases Json.find? n.key members
  case some v =>
    cases v
    case arr items => simp [listIssues, issues_rangesFrom]
    all_goals rfl
  case none =>
    cases Json.find? n.option members
    case none => rfl
    case some v =>
      cases v
      case arr items => simp [listIssues, issues_rangesFrom]
      all_goals rfl

theorem founded_object (members : List (Text × Json)) : (ofJson (.obj members)).Founded :=
  have h := founded_rangesOf members
  ((h .pod).both (h .service) _).both ((h .staticService).both (h .nodeService) _) _

theorem issues_object (members : List (Text × Json)) : (ofJson (.obj members)).issues = issuesOf members := by
  simp [ofJson, issues_rangesOf, issuesOf, PoolName.all]

theorem told_object (members : List (Text × Json)) :
    Told (read (.value (.obj members))) (issuesOf members) :=
  issues_object members ▸ (founded_object members).told

/-! ### Where the issues of a range lie -/

theorem issues_bound (name : String) (members : List (Text × Json)) : (bound name members).issues = []
    ∨ ∃ cause, ¬ Cause.Between cause ∧ (bound name members).issues = [⟨[.key name], cause⟩] := by
  simp only [bound, Checked.issues_under]
  cases Json.find? name members
  case none => exact .inr ⟨.missing, by rintro ⟨⟩, rfl⟩
  case some v =>
    cases v
    case str t =>
      cases ht : Host.ofText? (Text.trim t) <;> simp only [ht]
      case none   => exact .inr ⟨.bounds (.unparsable _), by rintro ⟨⟩, rfl⟩
      case some h => exact .inl rfl
    all_goals exact .inr ⟨.notText, by rintro ⟨⟩, rfl⟩

theorem issues_ordered (first last : Text × Host) : (ordered first last).issues = []
    ∨ ∃ cause, (ordered first last).issues = [⟨[], cause⟩] := by
  simp only [ordered]
  repeat' split
  all_goals first | exact .inl rfl | exact .inr ⟨_, rfl⟩

-- A range has one issue of its own, or issues of its bounds. Only bounds without issues are compared.
theorem issues_range (v : Json) : (∃ cause, (Range.ofJson v).issues = [⟨[], cause⟩])
    ∨ ((Range.ofJson v).issues.map Issue.path).Sublist [[.key "start"], [.key "end"]]
      ∧ ∀ i ∈ (Range.ofJson v).issues, ¬ Cause.Between i.cause := by
  cases v
  case obj members =>
    rw [Range.ofJson]
    cases h : Checked.both Prod.mk (bound "start" members) (bound "end" members)
    case ok bounds =>
      rcases issues_ordered bounds.1 bounds.2 with ho | ho
      · exact .inr (by simp [ho])
      · exact .inl ho
    case error is =>
      have hb := Checked.issues_both (f := Prod.mk) (c := bound "start" members) (d := bound "end" members)
      rw [h] at hb
      simp only [Outcome.error_bind]
      change is = _ at hb
      rcases issues_bound "start" members with hs | ⟨c, hc, hs⟩ <;>
        rcases issues_bound "end" members with he | ⟨d, hd, he⟩ <;> rw [hs, he] at hb <;> subst hb
      all_goals exact .inr (by simp [Checked.issues, *])
  all_goals exact .inl ⟨_, rfl⟩

theorem nodup_paths_range (v : Json) : ((Range.ofJson v).issues.map Issue.path).Nodup := by
  rcases issues_range v with ⟨c, hc⟩ | ⟨hs, _⟩
  · simp [hc]
  · exact hs.nodup (by decide)

-- Bounds that do not go together are the one issue of their range.
theorem issues_eq_of_between {i : Issue} (hi : i ∈ (Range.ofJson v).issues) (hb : i.cause.Between) :
    i.path = [] ∧ (Range.ofJson v).issues = [i] := by
  rcases issues_range v with ⟨c, hc⟩ | ⟨_, hn⟩
  · rw [hc] at hi ⊢
    rw [List.mem_singleton.mp hi]
    exact ⟨rfl, rfl⟩
  · exact absurd hb (hn i hi)

/-! ### Where the issues of a document lie -/

theorem nameIn_mem (members : List (Text × Json)) (n : PoolName) : nameIn members n ∈ listNames n := by
  simp only [nameIn]
  split
  case isTrue  => exact .head _
  case isFalse => exact .tail _ (.head _)

theorem mem_itemIssues {i : Issue} : i ∈ itemIssues name index items ↔ ∃ k v, items[k]? = some v
    ∧ ∃ j ∈ (Range.ofJson v).issues, j.behind [.key name, .item (index + k)] = i := by
  simp only [itemIssues, List.mem_flatMap, List.mem_map, Prod.exists, List.mk_mem_zipIdx_iff_le_and_getElem?_sub]
  constructor
  · rintro ⟨v, k, ⟨hk, hv⟩, j, hj, he⟩
    exact ⟨k - index, v, hv, j, hj, by rwa [Nat.add_sub_cancel' hk]⟩
  · rintro ⟨k, v, hv, j, hj, he⟩
    exact ⟨v, index + k, ⟨Nat.le_add_right _ _, by rwa [Nat.add_sub_cancel_left]⟩, j, hj, he⟩

theorem Issue.prefix_behind (place : List Step) (i : Issue) : place <+: (i.behind place).path :=
  List.prefix_append _ _

-- Issues of other items lie elsewhere.
theorem not_prefix_of_mem_itemIssues {i : Issue} {k : Nat} (h : i ∈ itemIssues name index items)
    (hk : k < index ∨ index + items.length ≤ k) : ¬ [.key name, .item k] <+: i.path := by
  obtain ⟨l, v, hl, j, _, rfl⟩ := mem_itemIssues.mp h
  have := (List.getElem?_eq_some_iff.mp hl).choose
  simp only [Issue.behind, List.cons_append, List.cons_prefix_cons, Step.item.injEq, true_and, not_and]
  omega

theorem prefix_of_mem_listIssues {i : Issue} (h : i ∈ listIssues name v) : [.key name] <+: i.path := by
  cases v
  case arr items =>
    obtain ⟨k, v, _, j, _, rfl⟩ := mem_itemIssues.mp h
    simp [Issue.behind]
  all_goals
    rw [List.mem_singleton.mp h]

theorem nodup_paths_items : ((itemIssues name index items).map Issue.path).Nodup := by
  induction items generalizing index
  case nil             => simp [itemIssues]
  case cons v items hi =>
    rw [itemIssues_cons, List.map_append, List.nodup_append']
    refine ⟨?_, hi, ?_⟩
    · have hm := (nodup_paths_range v).map (List.append_right_injective [Step.key name, .item index])
      simpa [Issue.behind, Function.comp_def] using hm
    · rintro p hp hq
      obtain ⟨i, hi, rfl⟩ := List.mem_map.mp hp
      obtain ⟨j, hj, he⟩ := List.mem_map.mp hq
      obtain ⟨i, _, rfl⟩ := List.mem_map.mp hi
      exact not_prefix_of_mem_itemIssues hj (.inl (Nat.lt_succ_self index)) (he ▸ i.prefix_behind _)

theorem nodup_paths_list (name : String) (v : Json) : ((listIssues name v).map Issue.path).Nodup := by
  cases v
  case arr items => exact nodup_paths_items
  all_goals exact List.nodup_singleton _

theorem mem_poolIssues {i : Issue} : i ∈ poolIssues members n ↔
    ∃ v, member? members n = some v ∧ i ∈ listIssues (nameIn members n) v := by
  simp only [poolIssues]
  cases member? members n <;> simp

-- Issues of other pools lie elsewhere.
theorem not_prefix_of_mem_poolIssues {i : Issue} {place : List Step} (hn : name ∈ listNames n) (hm : m ≠ n)
    (h : i ∈ poolIssues members m) : ¬ .key name :: place <+: i.path := by
  obtain ⟨v, _, hi⟩ := mem_poolIssues.mp h
  obtain ⟨p, hp⟩ := prefix_of_mem_listIssues hi
  rw [← hp, List.singleton_append, List.cons_prefix_cons, Step.key.injEq]
  rintro ⟨rfl, _⟩
  exact hm (eq_of_mem_listNames (nameIn_mem members m) hn)

theorem nodup_paths_pool (members : List (Text × Json)) (n : PoolName) :
    ((poolIssues members n).map Issue.path).Nodup := by
  simp only [poolIssues]
  cases member? members n
  case none   => exact List.nodup_nil
  case some v => exact nodup_paths_list _ v

theorem nodup_all : PoolName.all.Nodup := by
  decide

theorem nodup_paths (members : List (Text × Json)) : ((issuesOf members).map Issue.path).Nodup := by
  rw [issuesOf, List.map_flatMap, List.nodup_flatMap]
  refine ⟨fun n _ => nodup_paths_pool members n, nodup_all.imp fun {m n} hmn => ?_⟩
  rintro p hp hq
  obtain ⟨i, hi, rfl⟩ := List.mem_map.mp hp
  obtain ⟨j, hj, he⟩ := List.mem_map.mp hq
  obtain ⟨_, _, hj⟩ := mem_poolIssues.mp hj
  exact not_prefix_of_mem_poolIssues (nameIn_mem members n) hmn hi (he ▸ prefix_of_mem_listIssues hj)

/-! ### Items that are put in place of others -/

theorem find?_put_of_ne {name' : String} (h : name ≠ name') (w : Json) (members : List (Text × Json)) :
    Json.find? name (Json.put name' w members) = Json.find? name members := by
  rw [Json.find?_put, if_neg (mt Text.ofString_inj.mp h.symm)]

theorem poolIssues_put_of_ne (hn : name ∈ listNames n) (hm : m ≠ n) :
    poolIssues (Json.put name w members) m = poolIssues members m := by
  have hne {name' : String} (h : name' ∈ listNames m) : name' ≠ name := fun he =>
    hm (eq_of_mem_listNames h (he ▸ hn))
  have hk := find?_put_of_ne (hne (.head _)) w members
  have ho := find?_put_of_ne (hne (.tail _ (.head _))) w members
  simp only [poolIssues, member?, nameIn, hk, ho]

theorem poolIssues_put : poolIssues (Json.put (nameIn members n) w members) n = listIssues (nameIn members n) w := by
  have hne : n.key ≠ n.option := by cases n <;> decide
  cases hk : Json.find? n.key members
  case some v =>
    have hn : nameIn members n = n.key := by simp [nameIn, hk]
    rw [hn]
    simp [poolIssues, member?, nameIn, Json.find?_put]
  case none =>
    have hn : nameIn members n = n.option := by simp [nameIn, hk]
    rw [hn]
    simp [poolIssues, member?, nameIn, Json.find?_put, find?_put_of_ne hne, hk]

-- The names of the other pools.
theorem exists_append_of_ne (n : PoolName) : ∃ before after, PoolName.all = before ++ n :: after
    ∧ ∀ m ∈ before ++ after, m ≠ n := by
  obtain ⟨before, after, he⟩ := List.append_of_mem (PoolName.mem_all n)
  refine ⟨before, after, he, ?_⟩
  have hn := nodup_all
  rw [he] at hn
  rintro m hm rfl
  exact (List.nodup_middle.mp hn).notMem hm

-- The issues of an item stand between those of the items around it.
theorem itemIssues_set (hk : k < items.length) (w : Json) : itemIssues name 0 (items.set k w) =
    itemIssues name 0 (items.take k) ++ ((Range.ofJson w).issues.map (·.behind [.key name, .item k])
      ++ itemIssues name (k + 1) (items.drop (k + 1))) := by
  rw [List.set_eq_take_append_cons_drop, if_pos hk, itemIssues_append, itemIssues_cons]
  simp [Nat.min_eq_left hk.le]

-- In the whole document they do so too, and the others do not depend on the item.
theorem exists_between (hl : member? members n = some (.arr items)) (hk : items[k]? = some v) :
    ∃ before after, (∀ i ∈ before ++ after, ¬ [.key (nameIn members n), .item k] <+: i.path)
      ∧ issuesOf members = before
        ++ ((Range.ofJson v).issues.map (·.behind [.key (nameIn members n), .item k]) ++ after)
      ∧ ∀ w, issuesOf (Json.put (nameIn members n) (.arr (items.set k w)) members) = before
        ++ ((Range.ofJson w).issues.map (·.behind [.key (nameIn members n), .item k]) ++ after) := by
  obtain ⟨ns, ns', hns, hne⟩ := exists_append_of_ne n
  obtain ⟨hlt, hv⟩ := List.getElem?_eq_some_iff.mp hk
  have hname := nameIn_mem members n
  have pools (members' : List (Text × Json)) (h : ∀ m, m ≠ n → poolIssues members' m = poolIssues members m) :
      issuesOf members' = ns.flatMap (poolIssues members)
        ++ (poolIssues members' n ++ ns'.flatMap (poolIssues members)) := by
    rw [issuesOf, hns, List.flatMap_append, List.flatMap_cons,
      List.flatMap_congr fun m hm => h m (hne m (List.mem_append_left _ hm)),
      List.flatMap_congr fun m hm => h m (hne m (List.mem_append_right _ hm))]
  have own : poolIssues members n = itemIssues (nameIn members n) 0 (items.set k v) := by
    rw [← hv, List.set_getElem_self, poolIssues, hl]
    rfl
  refine ⟨ns.flatMap (poolIssues members) ++ itemIssues (nameIn members n) 0 (items.take k),
    itemIssues (nameIn members n) (k + 1) (items.drop (k + 1)) ++ ns'.flatMap (poolIssues members), ?_, ?_, ?_⟩
  · intro i hi
    simp only [List.mem_append, List.mem_flatMap] at hi
    rcases hi with (⟨m, hm, hi⟩ | hi) | hi | ⟨m, hm, hi⟩
    · exact not_prefix_of_mem_poolIssues hname (hne m (List.mem_append_left _ hm)) hi
    · exact not_prefix_of_mem_itemIssues hi (.inr (by simp))
    · exact not_prefix_of_mem_itemIssues hi (.inl (Nat.lt_succ_self k))
    · exact not_prefix_of_mem_poolIssues hname (hne m (List.mem_append_right _ hm)) hi
  · rw [pools members fun _ _ => rfl, own, itemIssues_set hlt]
    simp
  · intro w
    rw [pools _ fun m hm => poolIssues_put_of_ne hname hm, poolIssues_put, listIssues, itemIssues_set hlt]
    simp

theorem filter_prefix_issuesOf (hl : member? members n = some (.arr items)) (hk : items[k]? = some v) :
    ((issuesOf members).filter fun i => [.key (nameIn members n), .item k] <+: i.path) =
      (Range.ofJson v).issues.map (·.behind [.key (nameIn members n), .item k]) := by
  obtain ⟨before, after, hn, he, _⟩ := exists_between hl hk
  rw [List.forall_mem_append] at hn
  have hb := List.filter_eq_nil_iff.mpr fun i hi => decide_eq_true_iff.not.mpr (hn.left i hi)
  have ha := List.filter_eq_nil_iff.mpr fun i hi => decide_eq_true_iff.not.mpr (hn.right i hi)
  rw [he, List.filter_append, List.filter_append, hb, ha, List.nil_append, List.append_nil, List.filter_eq_self]
  intro i hi
  obtain ⟨j, _, rfl⟩ := List.mem_map.mp hi
  exact decide_eq_true (j.prefix_behind _)

theorem filter_not_prefix_issuesOf (hl : member? members n = some (.arr items)) (hk : items[k]? = some v)
    (hw : (Range.ofJson w).issues = []) :
    issuesOf (Json.put (nameIn members n) (.arr (items.set k w)) members) =
      (issuesOf members).filter fun i => ¬ [.key (nameIn members n), .item k] <+: i.path := by
  obtain ⟨before, after, hn, he, hp⟩ := exists_between hl hk
  rw [List.forall_mem_append] at hn
  have hb := List.filter_eq_self.mpr fun i hi => decide_eq_true (hn.left i hi)
  have ha := List.filter_eq_self.mpr fun i hi => decide_eq_true (hn.right i hi)
  have ho : ((Range.ofJson v).issues.map (·.behind [.key (nameIn members n), .item k])).filter
      (fun i => ¬ [.key (nameIn members n), .item k] <+: i.path) = [] := by
    refine List.filter_eq_nil_iff.mpr fun i hi => ?_
    obtain ⟨j, _, rfl⟩ := List.mem_map.mp hi
    simp [j.prefix_behind]
  rw [hp, hw, he, List.filter_append, List.filter_append, hb, ha, ho]
  rfl

theorem filter_prefix_of_between {i : Issue} (hi : i ∈ issuesOf members) (hb : i.cause.Between) :
    (issuesOf members).filter (fun j => i.path <+: j.path) = [i] := by
  obtain ⟨n, _, hi⟩ := List.mem_flatMap.mp hi
  obtain ⟨u, hu, hi⟩ := mem_poolIssues.mp hi
  cases u
  case arr items =>
    obtain ⟨k, v, hk, j, hj, rfl⟩ := mem_itemIssues.mp hi
    obtain ⟨hp, ho⟩ := issues_eq_of_between hj hb
    have hf := filter_prefix_issuesOf hu hk
    rw [ho] at hf
    simpa [Issue.behind, hp] using hf
  all_goals
    rw [List.mem_singleton.mp hi] at hb
    cases hb

theorem told_range (v : Json) : Told (Range.read v) (Range.ofJson v).issues :=
  (founded_range v).told

-- An object is refused with the issues of all its lists, each of which lies under the item that it is about.
-- No two of them have the same path, and under bounds that do not go together there is no other issue. An
-- item that is put right takes its own issues with it, and all others stay. The exception are issues that
-- cannot be put into words: then nothing is told of any of them.
theorem issues_complete_and_local (members : List (Text × Json)) :
    (∀ v, Told (Range.read v) (Range.ofJson v).issues)
    ∧ Told (read (.value (.obj members))) (issuesOf members)
    ∧ ((issuesOf members).map Issue.path).Nodup
    ∧ (∀ i ∈ issuesOf members, i.cause.Between →
      (issuesOf members).filter (fun j => i.path <+: j.path) = [i])
    ∧ ∀ n items k v, member? members n = some (.arr items) → items[k]? = some v →
      let place : List Step := [.key (nameIn members n), .item k]
      ((issuesOf members).filter fun i => place <+: i.path) = (Range.ofJson v).issues.map (·.behind place)
      ∧ ((∃ r, Range.read v = .ok r) ↔ ∀ i ∈ issuesOf members, ¬ place <+: i.path)
      ∧ ∀ w r, Range.read w = .ok r →
        issuesOf (Json.put (nameIn members n) (.arr (items.set k w)) members) =
          (issuesOf members).filter fun i => ¬ place <+: i.path := by
  refine ⟨told_range, told_object members, nodup_paths members, fun i => filter_prefix_of_between, ?_⟩
  intro n items k v hl hk place
  have hf := filter_prefix_issuesOf hl hk
  refine ⟨hf, ?_, fun w r hw => ?_⟩
  · rw [(told_range v).accepted, ← List.map_eq_nil_iff, ← hf, List.filter_eq_nil_iff]
    simp only [decide_eq_true_eq]
    rfl
  · exact filter_not_prefix_issuesOf hl hk ((told_range w).accepted.mp ⟨r, hw⟩)

-- A list with two ranges at fault, the second of which is reversed.
def faultyItems : List Json :=
  [.obj [], .obj [("start", .str "10.0.0.2"), ("end", .str "10.0.0.1")]]

-- The list, and a member that should be one.
def faulty : List (Text × Json) :=
  [("pod_ip_pool", .arr faultyItems), ("service-ip-pool", .null)]

theorem issues_complete_and_local_of_faulty :
    let sound : Json := .obj [("start", .str "10.0.0.1"), ("end", .str "10.0.0.2")]
    let reversed : Issue := ⟨[.key "pod_ip_pool", .item 1], .bounds (.reversed "10.0.0.2" "10.0.0.1")⟩
    let notList : Issue := ⟨[.key "service-ip-pool"], .notList⟩
    issuesOf faulty = [⟨[.key "pod_ip_pool", .item 0, .key "start"], .missing⟩,
      ⟨[.key "pod_ip_pool", .item 0, .key "end"], .missing⟩, reversed, notList]
    ∧ read (.value (.obj faulty)) = .error (.issues (issuesOf faulty))
    ∧ reversed.cause.Between ∧ (issuesOf faulty).filter (fun j => reversed.path <+: j.path) = [reversed]
    ∧ member? faulty .pod = some (.arr faultyItems) ∧ faultyItems[0]? = some (.obj [])
    ∧ Range.read sound = .ok ⟨"10.0.0.1", "10.0.0.2"⟩
    ∧ issuesOf (Json.put "pod_ip_pool" (.arr (faultyItems.set 0 sound)) faulty) = [reversed, notList] := by
  intro sound reversed notList
  have hf : issuesOf faulty = [⟨[.key "pod_ip_pool", .item 0, .key "start"], .missing⟩,
      ⟨[.key "pod_ip_pool", .item 0, .key "end"], .missing⟩, reversed, notList] := rfl
  obtain ⟨_, hread, _, hbetween, hitems⟩ := issues_complete_and_local faulty
  obtain ⟨_, _, hput⟩ := hitems .pod faultyItems 0 (.obj []) rfl rfl
  have hw : ∀ i ∈ issuesOf faulty, i.Writable := by
    rw [hf]
    simp [reversed, notList, Issue.Writable, Cause.repeated]
  exact ⟨hf, (hread.refused _).mpr ⟨rfl, by simp [hf], hw⟩, .reversed,
    hbetween _ (by simp [hf]) .reversed, rfl, rfl, rfl, hput sound _ rfl⟩

-- Both bounds of one range are missing. The wording of the other range cannot be written, and so nothing is
-- told of the first one either.
theorem unwritable_hides_issues :
    let range : Json := .obj [("start", .str (Text.ofString "::1%" ++ [.half 0x7ff])), ("end", .str "10.0.0.1")]
    let members : List (Text × Json) := [("pod-ip-pool", .arr [.obj [], range])]
    read (.value (.obj members)) = .error (.unwritable ⟨10, 1, 0x7ff⟩)
    ∧ (issuesOf members).map Issue.path = [[.key "pod-ip-pool", .item 0, .key "start"],
      [.key "pod-ip-pool", .item 0, .key "end"], [.key "pod-ip-pool", .item 1]]
    ∧ ∀ is, read (.value (.obj members)) ≠ .error (.issues is) := by
  intro range members
  have h : read (.value (.obj members)) = .error (.unwritable ⟨10, 1, 0x7ff⟩) := rfl
  exact ⟨h, rfl, by simp [h]⟩

end AddressSpace.Document
