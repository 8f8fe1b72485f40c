import Facade.Batch.Lint
import Facade.Batch.State
import Facade.Record.Extract

/-!
This module contains the stages that a batch goes through before wrappers are generated.
-/

namespace Facade.Batch

structure Stage where
  name : String
  description : String
  run : State → Except Trouble State

namespace Stage

/-- Checks the records. An error among the notices stops the batch. -/
def validate (lints : List Lint) : Stage where
  name := "validate"
  description := "Check class records and collect diagnostics"
  run state :=
    let found := lints.flatMap fun lint => lint.check state.settings state.records
    let state := { state with notices := state.notices ++ found }
    -- errors that were there before the lints count as well
    if state.hasAny .error then .error (.errorsFound (state.noticesOf .error).length)
    else .ok state

/-- Describes the classes of the records. A record that is flawed is a failure. -/
def extract : Stage where
  name := "extract"
  description := "Read class metadata into descriptors"
  run state :=
    let extraction := Record.extract state.settings.markers state.records
    .ok {
      state with
      classes := some extraction.classes
      failures := state.failures ++ extraction.failures
    }

/-- Makes the catalog of the classes. Those whose wrapper names are taken are failures. -/
def register : Stage where
  name := "registry"
  description := "Register wrapper names for cross-references"
  run state :=
    match state.classes with
    | none => .error .nothingToRegister
    | some classes =>
      let (catalog, failures) := Catalog.ofClasses state.settings classes
      .ok {
        state with
        classes := some (classes.filter fun c => catalog.has c.name)
        catalog := some catalog
        failures := state.failures ++ failures
      }

end Stage

end Facade.Batch
