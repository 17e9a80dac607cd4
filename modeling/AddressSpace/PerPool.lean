import AddressSpace.Text.CodePoint

/-!
The names of the pools that a control plane keeps, and one value for each of them.
-/

namespace AddressSpace

inductive PoolName where
  | pod
  | service
  | staticService
  | nodeService
  deriving DecidableEq, Repr, Inhabited

namespace PoolName

def all : List PoolName :=
  [.pod, .service, .staticService, .nodeService]

def text : PoolName → String
  | .pod => "pod"
  | .service => "service"
  | .staticService => "static-service"
  | .nodeService => "node-service"

-- The name of the pool's list in a settings file.
def option : PoolName → String
  | .pod => "pod_ip_pool"
  | .service => "service_ip_pool"
  | .staticService => "static_service_ip_pool"
  | .nodeService => "node_service_ip_pool"

-- The key of the pool's list in a document.
def key : PoolName → String
  | .pod => "pod-ip-pool"
  | .service => "service-ip-pool"
  | .staticService => "static-service-ip-pool"
  | .nodeService => "node-service-ip-pool"

def ofText? (t : Text) : Option PoolName :=
  all.find? fun n => decide (Text.ofString n.text = t)

theorem mem_all (n : PoolName) : n ∈ all := by
  cases n <;> decide

end PoolName

@[ext]
structure PerPool (α : Type) where
  pod : α
  service : α
  staticService : α
  nodeService : α
  deriving DecidableEq, Repr

namespace PerPool

variable {α : Type}

def ofFn (f : PoolName → α) : PerPool α :=
  { pod := f .pod, service := f .service, staticService := f .staticService,
    nodeService := f .nodeService }

def get (p : PerPool α) : PoolName → α
  | .pod => p.pod
  | .service => p.service
  | .staticService => p.staticService
  | .nodeService => p.nodeService

def set (p : PerPool α) (n : PoolName) (v : α) : PerPool α :=
  ofFn fun m => if m = n then v else p.get m

@[simp]
theorem get_ofFn (f : PoolName → α) (n : PoolName) : (ofFn f).get n = f n := by
  cases n <;> rfl

theorem get_set (p : PerPool α) (n m : PoolName) (v : α) :
    (p.set n v).get m = if m = n then v else p.get m := by
  simp [set]

def toList (p : PerPool α) : List (PoolName × α) :=
  PoolName.all.map fun n => (n, p.get n)

end PerPool

end AddressSpace
