import Mathlib.Data.List.Nodup
import SqlWire.Connection.Setting

/-!
# The order of options

Options of different keys set different parameters, so that it does not matter in which order they
come; but two of them set extra passwords, which are in the order of their options.  The parameters
other than the extra passwords are the same for every order of options whose keys are distinct, and
the extra passwords are the same if those options come in the same order, or have the same values,
`Connection.withOptions_perm`.
-/

namespace SqlWire

/-! ### Settings of options -/

namespace Setting

/-- The present names of the options that make a setting. -/
def optionNames : Setting → List String
  | user _ => ["user"]
  | password _ => ["password"]
  | extraPassword _ => ["password2", "password3"]
  | database _ => ["database"]
  | allowedPlugins _ => ["restrictedAuth"]
  | serverKey _ => ["serverRsaPublicKeyFile"]
  | keyRetrieval _ => ["allowPublicKeyRetrieval"]
  | sslMode _ => ["sslMode"]
  | cipherSuites _ => ["enabledSslCipherSuites"]
  | zeroDates _ => ["zeroDatePolicy"]

/-- The extra passwords that a setting adds. -/
def extraPasswords : Setting → List String
  | extraPassword text => [text]
  | _ => []

/-- The setting of an option that is understood and known. -/
def ofOption? (option : String × String) : Option Setting :=
  (ofOption option.1 option.2).toOption.join

/-- The option is understood; it need not be known. -/
def IsUnderstood (option : String × String) : Prop :=
  ∃ setting, ofOption option.1 option.2 = .ok setting

/-- The values of the options that set extra passwords, in order. -/
def extraPasswordsOf (options : List (String × String)) : List String :=
  (options.filter fun option => currentName option.1 ∈ ["password2", "password3"]).map (·.2)

theorem exists_of_toOption_join
    {α β : Type} {outcome : Except Error α} {f : α → β} {b : β}
    (h : (outcome >>= fun a => pure (some (f a))).toOption.join = some b) :
  ∃ a, b = f a
  := by
  cases outcome with
  | error e => cases h
  | ok a => exact ⟨a, (Option.some.inj h).symm⟩

theorem currentName_mem_optionNames
    {option : String × String} {s : Setting} (h : ofOption? option = some s) :
  currentName option.1 ∈ s.optionNames
  := by
  rw [ofOption?, ofOption] at h
  split at h
  case h_8 hname | h_9 hname | h_11 hname =>
    obtain ⟨a, rfl⟩ := exists_of_toOption_join h
    exact List.mem_singleton.mpr hname
  case h_12 => cases h
  all_goals
    obtain rfl := Option.some.inj h
    simp [optionNames, *]

theorem ofOption?_of_mem
    {option : String × String} (h : currentName option.1 ∈ ["password2", "password3"]) :
  ofOption? option = some (extraPassword option.2)
  := by
  rw [ofOption?, ofOption]
  rcases List.mem_pair.mp h with hname | hname <;> rw [hname] <;> rfl

/-- An option adds the extra passwords of its setting. -/
theorem extraPasswordsOf_singleton
    (option : String × String) :
  extraPasswordsOf [option] = (ofOption? option).elim [] extraPasswords
  := by
  by_cases hextra : currentName option.1 ∈ ["password2", "password3"]
  · rw [ofOption?_of_mem hextra, extraPasswordsOf, List.filter_cons_of_pos (by simpa using hextra)]
    rfl
  · rw [extraPasswordsOf, List.filter_cons_of_neg (by simpa using hextra)]
    cases hs : ofOption? option with
    | none => rfl
    | some s =>
      have hname := currentName_mem_optionNames hs
      cases s with
      | extraPassword text => exact absurd hname hextra
      | _ => rfl

theorem extraPasswordsOf_cons
    (option : String × String) (options : List (String × String)) :
  extraPasswordsOf (option :: options) = extraPasswordsOf [option] ++ extraPasswordsOf options
  := by
  have parts : option :: options = [option] ++ options := rfl
  rw [parts, extraPasswordsOf, List.filter_append, List.map_append]
  rfl

theorem flatMap_extraPasswords
    (options : List (String × String)) :
  (options.filterMap ofOption?).flatMap extraPasswords = extraPasswordsOf options
  := by
  induction options with
  | nil => rfl
  | cons option options ih =>
    rw [extraPasswordsOf_cons, extraPasswordsOf_singleton, List.filterMap_cons, ← ih]
    cases ofOption? option <;> rfl

end Setting

/-! ### One setting after another -/

namespace Connection

open Setting

/-- The parameters without the extra passwords. -/
def withoutExtraPasswords (c : Connection) : Connection :=
  { c with extraPasswords := [] }

theorem eq_iff
    {c c' : Connection} :
  c = c' ↔ c.withoutExtraPasswords = c'.withoutExtraPasswords ∧
    c.extraPasswords = c'.extraPasswords
  := by
  constructor
  · rintro rfl
    exact ⟨rfl, rfl⟩
  · rintro ⟨hothers, hextra⟩
    cases c
    cases c'
    simp_all [withoutExtraPasswords]

@[simp]
theorem extraPasswords_set
    (c : Connection) (s : Setting) :
  (c.set s).extraPasswords = c.extraPasswords ++ s.extraPasswords
  := by
  cases s with
  | extraPassword text => rfl
  | _ => exact (List.append_nil _).symm

theorem withoutExtraPasswords_set
    (c : Connection) (s : Setting) :
  (c.withoutExtraPasswords.set s).withoutExtraPasswords = (c.set s).withoutExtraPasswords
  := by
  cases s <;> rfl

/-- Apart from the extra passwords, settings of different options may be exchanged. -/
theorem withoutExtraPasswords_set_set
    {s t : Setting} {name name' : String} (hs : name ∈ s.optionNames) (ht : name' ∈ t.optionNames)
    (hne : name ≠ name') (c : Connection) :
  ((c.set s).set t).withoutExtraPasswords = ((c.set t).set s).withoutExtraPasswords
  := by
  cases s <;> cases t
  all_goals first
    | rfl
    | exact absurd ((List.mem_singleton.mp hs).trans (List.mem_singleton.mp ht).symm) hne

/-! ### A list of options -/

/-- Options that are understood set their settings one after another. -/
theorem withOptions_eq_ok
    {options : List (String × String)} (h : ∀ option ∈ options, IsUnderstood option)
    (c : Connection) :
  c.withOptions options = .ok ((options.filterMap ofOption?).foldl set c)
  := by
  induction options generalizing c with
  | nil => rfl
  | cons option options ih =>
    obtain ⟨⟨setting, hsetting⟩, hrest⟩ := List.forall_mem_cons.mp h
    rw [withOptions, List.foldlM_cons, withOption, hsetting, List.filterMap_cons, ofOption?,
      hsetting]
    cases setting with
    | none => apply ih hrest
    | some s => apply ih hrest

theorem exists_withOptions_eq_error
    {options : List (String × String)} (h : ¬ ∀ option ∈ options, IsUnderstood option)
    (c : Connection) :
  ∃ e, c.withOptions options = .error e
  := by
  induction options generalizing c with
  | nil => exact absurd (List.forall_mem_nil _) h
  | cons option options ih =>
    rw [withOptions, List.foldlM_cons, withOption]
    cases hsetting : ofOption option.1 option.2 with
    | error e => exact ⟨e, rfl⟩
    | ok setting =>
      have hrest : ¬ ∀ option ∈ options, IsUnderstood option := fun hrest =>
        h (List.forall_mem_cons.mpr ⟨⟨setting, hsetting⟩, hrest⟩)
      cases setting with
      | none => apply ih hrest
      | some s => apply ih hrest

theorem extraPasswords_foldl
    (settings : List Setting) (c : Connection) :
  (settings.foldl set c).extraPasswords =
    c.extraPasswords ++ settings.flatMap Setting.extraPasswords
  := by
  induction settings generalizing c with
  | nil => exact (List.append_nil _).symm
  | cons s settings ih =>
    rw [List.foldl_cons, ih, extraPasswords_set, List.flatMap_cons, List.append_assoc]

theorem withoutExtraPasswords_foldl
    (settings : List Setting) (c : Connection) :
  (settings.foldl set c).withoutExtraPasswords =
    settings.foldl (fun c s => (c.set s).withoutExtraPasswords) c.withoutExtraPasswords
  := by
  symm
  apply List.foldl_hom
  apply withoutExtraPasswords_set

theorem withoutExtraPasswords_foldl_perm
    {options options' : List (String × String)} (hperm : options.Perm options')
    (hdistinct : (options.map fun option => currentName option.1).Nodup) (c : Connection) :
  ((options.filterMap ofOption?).foldl set c).withoutExtraPasswords =
    ((options'.filterMap ofOption?).foldl set c).withoutExtraPasswords
  := by
  rw [withoutExtraPasswords_foldl, withoutExtraPasswords_foldl]
  apply (hperm.filterMap ofOption?).foldl_eq'
  intro s hs t ht d
  obtain ⟨option, hoption, hmakes⟩ := List.mem_filterMap.mp hs
  obtain ⟨option', hoption', hmakes'⟩ := List.mem_filterMap.mp ht
  rw [withoutExtraPasswords_set, withoutExtraPasswords_set]
  by_cases hsame : option = option'
  · obtain rfl : s = t := by
      rw [hsame, hmakes'] at hmakes
      exact (Option.some.inj hmakes).symm
    rfl
  · have hnames := mt (List.inj_on_of_nodup_map hdistinct hoption hoption') hsame
    apply withoutExtraPasswords_set_set (currentName_mem_optionNames hmakes)
      (currentName_mem_optionNames hmakes') hnames

/-- Whatever the order of options whose keys are distinct, they fail or they set the same
parameters, apart from the extra passwords.  These are the same as well, so that the order does not
matter, if and only if an option is not understood, so that all orders fail, or the options that set
extra passwords have the same values in both orders. -/
theorem withOptions_perm
    {options options' : List (String × String)} (hperm : options.Perm options')
    (hdistinct : (options.map fun option => currentName option.1).Nodup) (c : Connection) :
  (c.withOptions options).toOption.map withoutExtraPasswords =
    (c.withOptions options').toOption.map withoutExtraPasswords ∧
  ((c.withOptions options).toOption = (c.withOptions options').toOption ↔
    (∃ option ∈ options, ¬ IsUnderstood option) ∨
      extraPasswordsOf options = extraPasswordsOf options')
  := by
  by_cases hunderstood : ∀ option ∈ options, IsUnderstood option
  · have hothers := withoutExtraPasswords_foldl_perm hperm hdistinct c
    have hunderstood' : ∀ option ∈ options', IsUnderstood option := fun option hoption =>
      hunderstood option (hperm.mem_iff.mpr hoption)
    have hnone : ¬ ∃ option ∈ options, ¬ IsUnderstood option := by
      rintro ⟨option, hoption, hnot⟩
      exact hnot (hunderstood option hoption)
    rw [withOptions_eq_ok hunderstood, withOptions_eq_ok hunderstood', or_iff_right hnone]
    constructor
    · exact congrArg some hothers
    · rw [Except.toOption, Except.toOption, Option.some_inj, eq_iff, and_iff_right hothers,
        extraPasswords_foldl, extraPasswords_foldl, flatMap_extraPasswords,
        flatMap_extraPasswords, List.append_cancel_left_eq]
  · have hunderstood' : ¬ ∀ option ∈ options', IsUnderstood option := fun hall =>
      hunderstood fun option hoption => hall option (hperm.mem_iff.mp hoption)
    obtain ⟨e, he⟩ := exists_withOptions_eq_error hunderstood c
    obtain ⟨e', he'⟩ := exists_withOptions_eq_error hunderstood' c
    obtain ⟨option, hoption⟩ := not_forall.mp hunderstood
    rw [he, he']
    exact ⟨rfl, iff_of_true rfl (.inl ⟨option, Classical.not_imp.mp hoption⟩)⟩

/-- Options with an older name among them, in two orders. -/
theorem withOptions_perm_older :
  let options := [("useSSL", "trust"), ("password2", "second"), ("user", "app")]
  let options' := [("user", "app"), ("useSSL", "trust"), ("password2", "second")]
  (options.Perm options' ∧ (options.map fun option => currentName option.1).Nodup) ∧
  ((default : Connection).withOptions options).toOption =
    ((default : Connection).withOptions options').toOption
  := by
  intro options options'
  have hperm : options.Perm options' := by decide
  have hdistinct : (options.map fun option => currentName option.1).Nodup := by decide
  refine ⟨⟨hperm, hdistinct⟩, ?_⟩
  apply (withOptions_perm hperm hdistinct default).2.mpr
  right
  decide

/-- The order matters if there are options for the second password and the third. -/
theorem not_withOptions_perm :
  ¬ ∀ (options options' : List (String × String)) (c : Connection), options.Perm options' →
    (options.map fun option => currentName option.1).Nodup →
    (c.withOptions options).toOption = (c.withOptions options').toOption
  := by
  intro h
  have same := h [("password2", "second"), ("password3", "third")]
    [("password3", "third"), ("password2", "second")] default (by decide) (by decide)
  exact absurd (congrArg (Option.map extraPasswords) same) (by decide)

end Connection

end SqlWire
