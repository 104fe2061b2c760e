import Flowgraph.Diagnostic
import Flowgraph.Json.Record
/-!
# Diagnostics on the wire
-/
namespace Flowgraph

open Json

def Code.codec : Codec Code :=
  .integer "u16" (fun n => if 0 ≤ n ∧ n < UInt16.size then some ⟨.ofNat n.toNat⟩ else none)
    (fun c => c.number.toNat)

namespace Diagnostic

def fields :
    Fields [Code, Severity, Category, String, Option String, Option String] :=
  .cons (.required "code" Code.codec) <|
  .cons (.required "severity" .word) <|
  .cons (.required "category" .word) <|
  .cons (.required "message" .text) <|
  .cons (.optional "nodeId" .text) <|
  .cons (.optional "edgeId" .text) .nil

def codec : Codec Diagnostic :=
  (fields.codec "Diagnostic").map
    (fun (code, severity, category, message, node, edge, ()) =>
      ⟨code, severity, category, message, node, edge⟩)
    (fun d => (d.code, d.severity, d.category, d.message, d.nodeId, d.edgeId, ()))

end Diagnostic

namespace Diagnostics

def total : Codec Nat := .natBelow "usize" UInt64.size

def fields : Fields [List Diagnostic, List Diagnostic, Nat, Nat] :=
  .cons (.required "errors" Diagnostic.codec.list) <|
  .cons (.required "warnings" Diagnostic.codec.list) <|
  .cons (.required "totalErrors" total) <|
  .cons (.required "totalWarnings" total) .nil

def codec : Codec Diagnostics :=
  (fields.codec "Diagnostics").map
    (fun (errors, warnings, totalErrors, totalWarnings, ()) =>
      ⟨errors, warnings, totalErrors, totalWarnings⟩)
    (fun d => (d.errors, d.warnings, d.totalErrors, d.totalWarnings, ()))

end Diagnostics

namespace Verdict

def fields : Fields [Bool, List String] :=
  .cons (.required "valid" .bool) <| .cons (.required "errors" Codec.text.list) .nil

def codec : Codec Verdict :=
  (fields.codec "ValidationResult").map (fun (valid, errors, ()) => ⟨valid, errors⟩)
    (fun v => (v.valid, v.errors, ()))

end Verdict
end Flowgraph
