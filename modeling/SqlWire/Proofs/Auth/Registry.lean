import Mathlib.Data.List.Dedup
import SqlWire.Proofs.Auth.Rounds

/-!
# Registries keep the last plugin of each name

Registering plugins one after another leaves the last of each name, in order: a registry is what
`Registry.lastOfEach` keeps of the history of what was registered.  So its names are those of the
history without the earlier occurrences of any, and a server that asks for a name is given the
plugin that was last registered under it, if the client may use it, `Registry.names_select`.
-/

namespace SqlWire.Registry

/-- The last plugin of each name in a history, in order. -/
def lastOfEach (history : List Plugin) : Registry :=
  history.pwFilter fun p q => p.name ≠ q.name

/-- The plugin is in the history, and no later one has its name. -/
def IsLast (p : Plugin) (history : List Plugin) : Prop :=
  ∃ before after, history = before ++ p :: after ∧ p.name ∉ names after

variable {r : Registry} {history : List Plugin}

/-! ### What is left of a history -/

theorem names_lastOfEach
    (history : List Plugin) :
  (lastOfEach history).names = (names history).dedup
  := by
  symm
  apply List.pwFilter_map

theorem lastOfEach_cons
    (p : Plugin) (history : List Plugin) :
  lastOfEach (p :: history) =
    if p.name ∈ names history then lastOfEach history else p :: lastOfEach history
  := by
  have others : (∀ q ∈ lastOfEach history, p.name ≠ q.name) ↔ p.name ∉ names history := by
    rw [← List.mem_dedup, ← names_lastOfEach, names, List.mem_map, not_exists]
    simp only [not_and, ne_comm, ne_eq]
  split
  next h => exact List.pwFilter_cons_of_neg (mt others.mp (not_not_intro h))
  next h => exact List.pwFilter_cons_of_pos (others.mpr h)

theorem lastOfEach_eq_self
    (h : r.names.Nodup) :
  lastOfEach r = r
  := by
  apply List.pwFilter_eq_self.mpr
  apply List.pairwise_map.mp h

/-- Registering a plugin makes it the last of the history. -/
theorem register_lastOfEach
    (p : Plugin) (history : List Plugin) :
  (lastOfEach history).register p = lastOfEach (history ++ [p])
  := by
  induction history with
  | nil => rfl
  | cons q history ih =>
    have named : q.name ∈ names (history ++ [p]) ↔ q.name ∈ names history ∨ q.name = p.name := by
      rw [names, List.map_append, List.mem_append, List.map_singleton, List.mem_singleton]
      rfl
    rw [List.cons_append, lastOfEach_cons, lastOfEach_cons, ← ih, register, register]
    by_cases hearlier : q.name ∈ names history
    · rw [if_pos hearlier, if_pos (named.mpr (.inl hearlier))]
    rw [if_neg hearlier]
    by_cases hsame : q.name = p.name
    · rw [if_pos (named.mpr (.inr hsame)), List.filter_cons_of_neg (by simp [hsame])]
    · rw [if_neg (mt named.mp (not_or.mpr ⟨hearlier, hsame⟩)),
        List.filter_cons_of_pos (by simp [hsame]), List.cons_append]

/-- Registering plugins in order extends the history by them. -/
theorem foldl_register
    (h : r.names.Nodup) (ps : List Plugin) :
  ps.foldl (fun r p => r.register p) r = lastOfEach (r ++ ps)
  := by
  induction ps using List.reverseRecOn with
  | nil => rw [List.append_nil, lastOfEach_eq_self h, List.foldl_nil]
  | append_singleton ps p ih =>
    rw [List.foldl_append, ih, List.foldl_cons, List.foldl_nil, register_lastOfEach,
      List.append_assoc]

/-! ### What is found -/

theorem isLast_cons_iff
    {p q : Plugin} :
  IsLast p (q :: history) ↔ IsLast p history ∨ (q = p ∧ p.name ∉ names history)
  := by
  constructor
  · rintro ⟨before, after, hsplit, hafter⟩
    cases before with
    | nil =>
      obtain ⟨rfl, rfl⟩ := List.cons.inj hsplit
      exact .inr ⟨rfl, hafter⟩
    | cons _ before =>
      obtain ⟨rfl, rfl⟩ := List.cons.inj hsplit
      exact .inl ⟨before, after, rfl, hafter⟩
  · rintro (⟨before, after, rfl, hafter⟩ | ⟨rfl, hafter⟩)
    · exact ⟨q :: before, after, rfl, hafter⟩
    · exact ⟨[], history, rfl, hafter⟩

theorem IsLast.name_mem
    {p : Plugin} (h : IsLast p history) :
  p.name ∈ names history
  := by
  obtain ⟨before, after, rfl, -⟩ := h
  apply List.mem_map_of_mem (List.mem_append_right before List.mem_cons_self)

theorem find?_lastOfEach_eq_some_iff
    {name : String} {p : Plugin} :
  (lastOfEach history).find? name = some p ↔ p.name = name ∧ IsLast p history
  := by
  induction history with
  | nil => simp [lastOfEach, find?, IsLast]
  | cons q history ih =>
    rw [lastOfEach_cons, isLast_cons_iff]
    split
    next hlater =>
      -- The name comes again, so that the first plugin is not the last of it.
      rw [ih]
      refine and_congr_right fun _ => ⟨.inl, ?_⟩
      rintro (hlast | ⟨rfl, hnone⟩)
      · exact hlast
      · exact absurd hlater hnone
    next hnone =>
      rw [find?, List.find?_cons]
      split
      next hname =>
        obtain rfl := beq_iff_eq.mp hname
        rw [Option.some_inj]
        constructor
        · rintro rfl
          exact ⟨rfl, .inr ⟨rfl, hnone⟩⟩
        · rintro ⟨hname, hlast | ⟨hsame, -⟩⟩
          · exact absurd (hname ▸ hlast.name_mem) hnone
          · exact hsame
      next hother =>
        rw [find?] at ih
        rw [ih]
        refine and_congr_right fun hname => ⟨.inl, ?_⟩
        rintro (hlast | ⟨rfl, -⟩)
        · exact hlast
        · exact absurd (beq_iff_eq.mpr hname) (by rw [hother]; exact Bool.false_ne_true)

/-! ### What is chosen -/

/-- After plugins are registered in a registry of distinct names, the names are distinct and stand
in the order of their last registrations, of which those of the registry itself are the first; and
what a server is given for a name is the plugin last registered under it, if and only if the client
may use that. -/
theorem names_select
    (h : r.names.Nodup) (ps : List Plugin) :
  (ps.foldl (fun r p => r.register p) r).names.Nodup ∧
  (ps.foldl (fun r p => r.register p) r).names = (r.names ++ names ps).dedup ∧
  ∀ (name : String) (c : Connection) (p : Plugin),
    (ps.foldl (fun r p => r.register p) r).select name c = .ok p ↔
      p.name = name ∧ IsLast p (r ++ ps) ∧ c.Permits p
  := by
  rw [foldl_register h, names_lastOfEach]
  refine ⟨List.nodup_dedup _, ?_, ?_⟩
  · rw [names, List.map_append]
    rfl
  · intro name c p
    rw [select_eq_ok_iff, find?_lastOfEach_eq_some_iff, and_assoc]

/-- A dialogue that needs leave takes the place of the one that is built in, and the plugin of the
password itself is registered once more. -/
theorem names_select_leave :
  let dialogue : Plugin := { Plugin.dialog with isActiveByDefault := false }
  let registry := [dialogue, Plugin.clearPassword].foldl (fun r p => Registry.register p r)
    Plugin.builtIn
  (names Plugin.builtIn).Nodup ∧
  registry.names = ["mysql_native_password", "caching_sha2_password", "sha256_password", "dialog",
    "mysql_clear_password"] ∧
  registry.select "dialog" { (default : Connection) with allowedPlugins := some ["dialog"] } =
    .ok dialogue ∧
  registry.select "dialog" default ≠ .ok dialogue
  := by
  intro dialogue registry
  have hdistinct : (names Plugin.builtIn).Nodup := by decide
  obtain ⟨-, hnames, hselect⟩ := names_select hdistinct [dialogue, Plugin.clearPassword]
  refine ⟨hdistinct, ?_, ?_, ?_⟩
  · rw [hnames]
    decide
  · apply (hselect _ _ _).mpr
    refine ⟨rfl, ⟨Plugin.builtIn, [Plugin.clearPassword], rfl, by decide⟩, ?_⟩
    exact List.mem_singleton.mpr rfl
  · intro hchosen
    exact Bool.false_ne_true ((hselect _ _ _).mp hchosen).2.2

end SqlWire.Registry
