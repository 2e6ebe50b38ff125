import LambdaSharing.Proofs.Options.Grammar
import LambdaSharing.Proofs.Walk.Sequence

/-!
# The last switch counts

A compiler is given all its hidden switches in one list, in which what is said
later is to override what is said before. They are worked off one by one, and
each of them stops everything, sets one of the six settings, or does nothing
at all (`Options.applySwitches`).

What the switches come to can be said of the list as a whole. If there is a
switch that is refused, then the first of them decides the error
(`Switch.FirstRefused`), whatever else is in the list. Otherwise each setting is
decided by the last switch with its key (`Switch.Decides`), and by no other
one; the switches for different settings may therefore be mixed in any way
(`Options.ofSwitches_spec`). That three of the settings share a record makes no
difference to this (`Setting.setting_apply`).
-/

namespace LambdaSharing

open Switch

/-! ## Settings -/

/-- What options have under a key. -/
def Options.setting (o : Options) : Key → Setting
  | .deduplicate => .deduplicate o.deduplicate
  | .capturePolicy => .policy o.policy
  | .maxDepth => .maxDepth o.maxDepth
  | .noteFolded => .noteFolded o.reports.folded
  | .noteMethods => .noteMethods o.reports.methods
  | .trace => .trace o.reports.comparisons

/-- Options are the same if they have the same under every key. -/
theorem Options.ext_setting {o o' : Options} (h : ∀ k, o.setting k = o'.setting k) : o = o' := by
  obtain ⟨deduplicate, policy, maxDepth, folded, methods, comparisons⟩ := o
  cases h .deduplicate
  cases h .capturePolicy
  cases h .maxDepth
  cases h .noteFolded
  cases h .noteMethods
  cases h .trace
  rfl

/-- **A setting is made under its own key and under no other.** -/
theorem Setting.setting_apply (o : Options) (v : Setting) (k : Key) :
    (Setting.apply o v).setting k = if v.key = k then v else o.setting k := by
  cases v <;> cases k <;> rfl

/-! ## One switch -/

namespace Switch

variable {s : String} {k k' : Key} {v v' : Setting} {e : OptionsError}

theorem HasKey.unique (h : HasKey s k) (h' : HasKey s k') : k = k' := by
  rw [hasKey_iff] at h h'
  exact Option.some.inj (h.symm.trans h')

theorem Gives.hasKey (h : Gives s k v) : HasKey s k := (gives_iff.1 h).1

theorem Gives.key_eq (h : Gives s k v) : v.key = k :=
  (Key.setting?_eq_some_iff.1 (gives_iff.1 h).2).key_eq

/-- A switch is refused, or gives a value, or has no key of ours. -/
theorem refused_or_gives_or_foreign (s : String) :
    (∃ e, Refused s e) ∨ (∃ k v, Gives s k v) ∨ ∀ k, ¬ HasKey s k := by
  by_cases hforeign : ∀ k, ¬ HasKey s k
  · exact .inr (.inr hforeign)
  · obtain ⟨k, hkey⟩ := not_forall_not.1 hforeign
    cases hvalue : k.setting? (ofString s).value with
    | none => exact .inl ⟨⟨k, _⟩, refused_iff.2 ⟨hkey, hvalue, rfl⟩⟩
    | some v => exact .inr (.inl ⟨k, v, gives_iff.2 ⟨hkey, hvalue⟩⟩)

theorem setting_of_refused (h : Refused s e) : (ofString s).setting = .error e := by
  obtain ⟨hkey, hnone, hvalue⟩ := refused_iff.1 h
  rw [setting, hasKey_iff.1 hkey]
  simp only [hnone, ← hvalue]

theorem setting_of_gives (h : Gives s k v) : (ofString s).setting = .ok (some v) := by
  obtain ⟨hkey, hsome⟩ := gives_iff.1 h
  rw [setting, hasKey_iff.1 hkey]
  simp only [hsome]

theorem setting_of_foreign (h : ∀ k, ¬ HasKey s k) : (ofString s).setting = .ok none := by
  have hnone : Key.ofText? (ofString s).key = none :=
    Option.eq_none_iff_forall_ne_some.2 fun k hk => h k (hasKey_iff.2 hk)
  rw [setting, hnone]

/-! The answer to a switch is one of the three, so they exclude each other, and
what is given or refused is determined. -/

theorem Gives.unique (h : Gives s k v) (h' : Gives s k' v') : v = v' :=
  Option.some.inj (Except.ok.inj ((setting_of_gives h).symm.trans (setting_of_gives h')))

theorem Refused.unique {e' : OptionsError} (h : Refused s e) (h' : Refused s e') : e = e' :=
  Except.error.inj ((setting_of_refused h).symm.trans (setting_of_refused h'))

theorem Gives.not_refused (h : Gives s k v) (e : OptionsError) : ¬ Refused s e :=
  fun hrefused => nomatch (setting_of_gives h).symm.trans (setting_of_refused hrefused)

theorem not_refused_of_foreign (h : ∀ k, ¬ HasKey s k) (e : OptionsError) : ¬ Refused s e :=
  fun hrefused => nomatch (setting_of_foreign h).symm.trans (setting_of_refused hrefused)

end Switch

/-! ## One switch after another -/

/-- **What a list of switches makes of options.** -/
def Options.applySwitches (o : Options) (switches : List String) : Except OptionsError Options :=
  (settings (switches.map ofString)).map (·.foldl Setting.apply o)

namespace Options

variable {o o' : Options} {s : String} {rest : List String} {k : Key} {v : Setting}
  {e : OptionsError}

/-- At first all settings have their defaults. -/
theorem ofSwitches_eq (switches : List String) :
    ofSwitches switches = ({} : Options).applySwitches switches := by
  unfold ofSwitches applySwitches
  cases settings (switches.map ofString) <;> rfl

theorem applySwitches_of_refused (h : Refused s e) : o.applySwitches (s :: rest) = .error e := by
  rw [applySwitches, List.map_cons, settings, setting_of_refused h]
  rfl

theorem applySwitches_of_gives (h : Gives s k v) :
    o.applySwitches (s :: rest) = (Setting.apply o v).applySwitches rest := by
  rw [applySwitches, List.map_cons, settings, setting_of_gives h, applySwitches]
  cases settings (rest.map ofString) <;> rfl

theorem applySwitches_of_foreign (h : ∀ k, ¬ HasKey s k) :
    o.applySwitches (s :: rest) = o.applySwitches rest := by
  rw [applySwitches, List.map_cons, settings, setting_of_foreign h, applySwitches]
  cases settings (rest.map ofString) <;> rfl

end Options

/-! ## What a list of switches says -/

namespace Switch

/-- **The first switch that is refused** is refused with this error. -/
inductive FirstRefused : List String → OptionsError → Prop where
  | head {s : String} {rest : List String} {e : OptionsError} (h : Refused s e) :
    FirstRefused (s :: rest) e
  | tail {s : String} {rest : List String} {e : OptionsError} (h : ∀ e, ¬ Refused s e)
    (hrest : FirstRefused rest e) : FirstRefused (s :: rest) e

/-- **What is under a key in the end**: what the last switch with this key
gives, or what has been there if there is none. -/
def Decides (o : Options) (switches : List String) (k : Key) (v : Setting) : Prop :=
  match (switches.filter (HasKey · k)).getLast? with
  | some s => Gives s k v
  | none => v = o.setting k

/-- **The same switches under each key**, in the same order. How switches with
different keys are mixed makes no difference, and what has no key of ours is
not looked at. -/
def SameByKey (switches others : List String) : Prop :=
  ∀ k, switches.filter (HasKey · k) = others.filter (HasKey · k)

instance (switches others : List String) : Decidable (SameByKey switches others) :=
  decidable_of_iff (∀ k ∈ Key.all, _ = _) ⟨fun h k => h k (by cases k <;> decide), fun h k _ => h k⟩

variable {o : Options} {s : String} {rest : List String} {k k' : Key} {v v' : Setting}
  {e : OptionsError}

theorem firstRefused_cons_iff (h : ∀ e, ¬ Refused s e) :
    FirstRefused (s :: rest) e ↔ FirstRefused rest e := by
  constructor
  · intro hfirst
    cases hfirst with
    | head hs => exact absurd hs (h e)
    | tail _ hrest => exact hrest
  · exact .tail h

theorem decides_cons_of_gives (h : Gives s k' v') :
    Decides o (s :: rest) k v ↔ Decides (Setting.apply o v') rest k v := by
  by_cases hkey : HasKey s k
  · obtain rfl := h.hasKey.unique hkey
    unfold Decides
    rw [List.filter_cons_of_pos (by simpa using hkey), List.getLast?_cons]
    cases (rest.filter (HasKey · k')).getLast? with
    | some last => rfl
    | none =>
      show Gives s k' v ↔ v = (Setting.apply o v').setting k'
      rw [Setting.setting_apply, if_pos h.key_eq]
      exact ⟨fun hv => hv.unique h, fun hv => hv ▸ h⟩
  · unfold Decides
    rw [List.filter_cons_of_neg (by simpa using hkey), Setting.setting_apply, if_neg]
    rintro rfl
    exact hkey (h.key_eq ▸ h.hasKey)

theorem decides_cons_of_foreign (h : ∀ k, ¬ HasKey s k) :
    Decides o (s :: rest) k v ↔ Decides o rest k v := by
  unfold Decides
  rw [List.filter_cons_of_neg (by simpa using h k)]

end Switch

namespace Options

variable {o o' : Options} {switches : List String} {e : OptionsError}

/-- **The first refusal is the error.** -/
theorem applySwitches_eq_error_iff :
    o.applySwitches switches = .error e ↔ FirstRefused switches e := by
  induction switches generalizing o with
  | nil => exact ⟨nofun, nofun⟩
  | cons s rest ih =>
    rcases refused_or_gives_or_foreign s with ⟨e', h⟩ | ⟨k, v, h⟩ | h
    · rw [applySwitches_of_refused h]
      constructor
      · intro heq
        exact .head (Except.error.inj heq ▸ h)
      · intro hfirst
        cases hfirst with
        | head h' => rw [h.unique h']
        | tail hnone => exact absurd h (hnone e')
    · rw [applySwitches_of_gives h, ih, firstRefused_cons_iff h.not_refused]
    · rw [applySwitches_of_foreign h, ih, firstRefused_cons_iff (not_refused_of_foreign h)]

/-- **The last switch with a key decides what is under it.** -/
theorem applySwitches_eq_ok_iff :
    o.applySwitches switches = .ok o' ↔
      (∀ s ∈ switches, ∀ e, ¬ Refused s e) ∧ ∀ k, Decides o switches k (o'.setting k) := by
  induction switches generalizing o with
  | nil =>
    constructor
    · intro h
      obtain rfl := Except.ok.inj h
      exact ⟨List.forall_mem_nil _, fun k => rfl⟩
    · rintro ⟨-, h⟩
      exact congrArg Except.ok (ext_setting fun k => (h k).symm)
  | cons s rest ih =>
    rw [List.forall_mem_cons]
    rcases refused_or_gives_or_foreign s with ⟨e, h⟩ | ⟨k, v, h⟩ | h
    · rw [applySwitches_of_refused h]
      exact ⟨nofun, fun hok => absurd h (hok.1.1 e)⟩
    · simp only [applySwitches_of_gives h, ih, decides_cons_of_gives h, h.not_refused,
        not_false_eq_true, implies_true, true_and]
    · simp only [applySwitches_of_foreign h, ih, decides_cons_of_foreign h,
        not_refused_of_foreign h, not_false_eq_true, implies_true, true_and]

/-- A string without a key of ours may be left out. -/
theorem applySwitches_append_foreign {s : String} (h : ∀ k, ¬ HasKey s k)
    (earlier later : List String) :
    o.applySwitches (earlier ++ s :: later) = o.applySwitches (earlier ++ later) := by
  induction earlier generalizing o with
  | nil => exact applySwitches_of_foreign h
  | cons first earlier ih =>
    rw [List.cons_append, List.cons_append]
    rcases refused_or_gives_or_foreign first with ⟨e, h'⟩ | ⟨k, v, h'⟩ | h'
    · rw [applySwitches_of_refused h', applySwitches_of_refused h']
    · rw [applySwitches_of_gives h', applySwitches_of_gives h', ih]
    · rw [applySwitches_of_foreign h', applySwitches_of_foreign h', ih]

/-- What is decided does not depend on how switches with different keys are
mixed. -/
theorem applySwitches_of_sameByKey {others : List String} (h : SameByKey switches others)
    (hok : o.applySwitches switches = .ok o') : o.applySwitches others = .ok o' := by
  obtain ⟨haccepted, hdecides⟩ := applySwitches_eq_ok_iff.1 hok
  refine applySwitches_eq_ok_iff.2 ⟨fun s hs e hrefused => ?_, fun k => ?_⟩
  · have hkey := (refused_iff.1 hrefused).1
    have hmem : s ∈ switches.filter (HasKey · e.key) := by
      rw [h e.key]
      exact List.mem_filter.2 ⟨hs, decide_eq_true hkey⟩
    exact haccepted s (List.mem_filter.1 hmem).1 e hrefused
  · have hdecides := hdecides k
    unfold Decides at hdecides ⊢
    rwa [← h k]

/-- **The first refusal is the error; without one, the last switch for each
setting counts.** The switches come to an error exactly if one of them is
refused, and it is that of the first. They come to options exactly if none is
refused and each of the six settings is what the last switch with its key
gives, or its default if there is none. What has no key of ours has no effect,
and the switches for different settings may be mixed in any other way without
an effect on the options that they come to. -/
theorem ofSwitches_spec (switches : List String) :
    (∀ e, ofSwitches switches = .error e ↔ FirstRefused switches e) ∧
    (∀ o, ofSwitches switches = .ok o ↔
      (∀ s ∈ switches, ∀ e, ¬ Refused s e) ∧ ∀ k, Decides {} switches k (o.setting k)) ∧
    (∀ earlier s later, switches = earlier ++ s :: later → (∀ k, ¬ HasKey s k) →
      ofSwitches switches = ofSwitches (earlier ++ later)) ∧
    ∀ others, SameByKey switches others →
      ∀ o, ofSwitches switches = .ok o → ofSwitches others = .ok o := by
  simp only [ofSwitches_eq]
  refine ⟨fun e => applySwitches_eq_error_iff, fun o => applySwitches_eq_ok_iff, ?_, ?_⟩
  · rintro earlier s later rfl hforeign
    exact applySwitches_append_foreign hforeign earlier later
  · intro others h o hok
    exact applySwitches_of_sameByKey h hok

/-- A depth that is given twice, among other switches. -/
theorem ofSwitches_of_two_depths :
    let depths := ["-XDdedup.maxDepth=7", "-XDdedup.maxDepth=+012"]
    let switches := "-g:none" :: depths ++ ["dedup.trace"]
    let o : Options := { maxDepth := 12, reports := { comparisons := true } }
    (∀ k, ¬ HasKey "-g:none" k) ∧ SameByKey switches ("dedup.trace" :: depths) ∧
      ofSwitches switches = .ok o ∧ ofSwitches (depths ++ ["dedup.trace"]) = .ok o ∧
      ofSwitches ("dedup.trace" :: depths) = .ok o := by
  intro depths switches o
  obtain ⟨-, -, hforeign, hsame⟩ := ofSwitches_spec switches
  have hg : ∀ k, ¬ HasKey "-g:none" k := fun k => by cases k <;> decide +kernel
  have hmixed : SameByKey switches ("dedup.trace" :: depths) := by decide +kernel
  have hok : ofSwitches switches = .ok o := rfl
  exact ⟨hg, hmixed, hok, hforeign [] _ _ rfl hg ▸ hok, hsame _ hmixed o hok⟩

end Options

end LambdaSharing
