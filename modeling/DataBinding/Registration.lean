import DataBinding.World

/-!
# Registrations

Adding sources of change and setters to a shared configuration. A registration takes the place of the one
before it under the same key, which is told as a warning.
-/

namespace DataBinding

open Effect

namespace ConfigId

def tellOverridden (key what : String) : Effect Unit :=
  warn ("[" ++ key ++ "] " ++ what ++ " configuration has been overridden")

def registerMember (types : TypeTable) (c : ConfigId) (m : Member) (s : ChangeSource) : Effect Unit := do
  let config := (← get).configuration c
  modify (·.setConfiguration c { config with memberSources := config.memberSources.insert m.id s })
  if config.memberSources.contains m.id then tellOverridden (types.qualifiedMember m) "trigger"

/-- Registers the source of a named event of a type and the types below it. -/
def registerEvent (types : TypeTable) (c : ConfigId) (t : TypeId) (event : String) (s : ChangeSource) :
    Effect Unit := do
  let config := (← get).configuration c
  modify (·.setConfiguration c { config with eventSources := config.eventSources.add types t event s })
  if t ∈ config.eventSources.registered event then
    tellOverridden (types.name t ++ "." ++ event) "trigger"

def registerSetter (types : TypeTable) (c : ConfigId) (m : Member) (s : CustomSetter) : Effect Unit := do
  let config := (← get).configuration c
  modify (·.setConfiguration c { config with setters := config.setters.insert m.id s })
  if config.setters.contains m.id then tellOverridden (types.qualifiedMember m) "setter"

end ConfigId

end DataBinding
