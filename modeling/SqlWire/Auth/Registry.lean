import SqlWire.Auth.Plugin

/-!
# Registries

The type `Registry` of the plugins that a client knows, in the order in which they were last
registered, and the choice `Registry.select` of the one that a server asks for.
-/

namespace SqlWire

/-- The plugins that a client knows. -/
abbrev Registry := List Plugin

namespace Registry

/-- The registry with one more plugin, in the place of any other of its name. -/
def register (p : Plugin) (r : Registry) : Registry :=
  r.filter (·.name != p.name) ++ [p]

/-- The names of the plugins, in order. -/
def names (r : Registry) : List String :=
  r.map (·.name)

/-- The plugin of a name. -/
def find? (r : Registry) (name : String) : Option Plugin :=
  List.find? (·.name == name) r

/-- The plugin that a server asks for by name, if the client knows it and may use it: one that is
listed when there is a list, or else one that needs no leave. -/
def select (r : Registry) (name : String) (c : Connection) : Except Error Plugin :=
  match r.find? name with
  | none => .error (.unsupportedPlugin name)
  | some p =>
    match c.allowedPlugins with
    | some allowed =>
      if name ∈ allowed then .ok p else .error (.restrictedPlugin name allowed)
    | none => if p.isActiveByDefault then .ok p else .error (.unsupportedPlugin name)

end Registry

end SqlWire
