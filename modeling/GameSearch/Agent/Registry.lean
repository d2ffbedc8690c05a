import GameSearch.Agent

/-!
# Registries of agents

Agents under distinct names, in the order of registration.
-/

namespace GameSearch

/-- Named agents in the order of their registration; no name occurs twice. -/
structure Registry (Position Player Action : Type) where
  entries : List (String × Agent Position Player Action)
  nodup : (entries.map (·.1)).Nodup

namespace Registry

variable {Position Player Action : Type}

def empty : Registry Position Player Action := ⟨[], by simp⟩

def names (registry : Registry Position Player Action) : List String :=
  registry.entries.map (·.1)

def get? (registry : Registry Position Player Action) (name : String) :
    Option (Agent Position Player Action) :=
  (registry.entries.find? fun entry => entry.1 == name).map (·.2)

def lookup (registry : Registry Position Player Action) (name : String) :
    Except Fault (Agent Position Player Action) :=
  match registry.get? name with
  | some agent => .ok agent
  | none => .error (.unknownAgent name registry.names)

/-- Adds an agent under a new name. -/
def register (registry : Registry Position Player Action) (name : String)
    (agent : Agent Position Player Action) : Except Fault (Registry Position Player Action) :=
  if known : name ∈ registry.names then .error (.alreadyRegistered name)
  else .ok ⟨registry.entries ++ [(name, agent)], by
    simp only [List.map_append, List.map_cons, List.map_nil, List.nodup_append, List.mem_map,
      List.mem_singleton]
    refine ⟨registry.nodup, by simp, ?_⟩
    rintro other ⟨entry, mem, rfl⟩ _ rfl same
    exact known (same ▸ List.mem_map_of_mem mem)⟩

/-- The registry in one line. -/
def describe (registry : Registry Position Player Action) : String :=
  "AgentRegistry(" ++ Text.bracketed (registry.names.map Text.quoted) ++ ")"

end Registry

end GameSearch
