import CodeBridge.Workload.Files
import CodeBridge.Workload.Generation
import CodeBridge.Workload.Naming
import CodeBridge.Workload.Writing

/-! # All workloads -/

namespace CodeBridge.Workload

/-- The workloads in the order of their names. -/
def all : List Workload :=
  [⟨"bench_attributes_macrocall", "n_calls", accesses⟩,
    ⟨"bench_c_header_generation", "n_structs", headers⟩,
    ⟨"bench_c_python_conversion_generation", "n_structs", conversions⟩,
    ⟨"bench_c_to_string_generation", "n_structs", printers⟩,
    ⟨"bench_codewriter_nested_blocks", "n_blocks", blocks⟩,
    ⟨"bench_ctypes_resolution", "n_types", spellings⟩,
    ⟨"bench_model_construction", "n_items", constructions⟩,
    ⟨"bench_parse_header", "n_defs", readings⟩,
    ⟨"bench_pascal_to_c_case", "n_names", names⟩,
    ⟨"bench_python_model_generation", "n_structs", classes⟩,
    ⟨"bench_template_write_module", "n_fields", fillings⟩]

def find? (name : String) : Option Workload :=
  all.find? (·.name == name)

end CodeBridge.Workload
