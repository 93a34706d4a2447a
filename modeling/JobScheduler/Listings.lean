import JobScheduler.JobRepository
import JobScheduler.Pagination

/-! The paginated listings of jobs and of unresolved dead letters, over a snapshot of
their collection. Mongo sorts by one key; the order among documents of one key is taken
as fixed, and is a parameter. -/
namespace JobScheduler

open Pagination

/-- A job document with the time stamp that Mongoose adds. -/
structure JobDocument where
  job : IJob
  createdAt : Int

namespace JobRepository

/-- `{ tenantId }`, and the status if one is given. -/
def tenantFilter (tenantId : String) (status : Option JobStatus) (doc : JobDocument) : Bool :=
  doc.job.tenantId = tenantId && status.all fun wanted => doc.job.status = wanted

def findByFilter (order : SortOrder JobDocument.createdAt) (docs : List JobDocument)
    (filter : JobDocument → Bool) (page limit : Nat) : PaginatedResult JobDocument :=
  paginate order docs filter page limit

def findByTenant (order : SortOrder JobDocument.createdAt) (docs : List JobDocument)
    (tenantId : String) (status : Option JobStatus) (page limit : Nat) :
    PaginatedResult JobDocument :=
  paginate order docs (tenantFilter tenantId status) page limit

/-- The count for each status, where an empty type is as good as none. -/
def countByStatus (jobs : Jobs) (jobType : Option String) (status : JobStatus) : Nat :=
  jobs.docs.countP fun job => job.status = status &&
    jobType.all fun wanted => wanted = "" || job.jobType.name = wanted

end JobRepository

namespace DeadLetterRepository

/-- No resolution yet, and the tenant and the type if they are given. An empty tenant is
as good as none. -/
def unresolvedFilter (tenantId : Option String) (jobType : Option JobType)
    (letter : IDeadLetter) : Bool :=
  letter.resolvedAt.isNone &&
    tenantId.all (fun wanted => wanted = "" || letter.tenantId = wanted) &&
    jobType.all fun wanted => letter.jobType = wanted

def findUnresolved (order : SortOrder IDeadLetter.deadAt) (docs : List IDeadLetter)
    (tenantId : Option String) (jobType : Option JobType) (page limit : Nat) :
    PaginatedResult IDeadLetter :=
  paginate order docs (unresolvedFilter tenantId jobType) page limit

end DeadLetterRepository

open JobRepository DeadLetterRepository

/-- Every listing with this limit cuts up the sorted list of what its filter matches. -/
structure ListingsPartition (limit : Nat) : Prop where
  byTenant : ∀ order docs tenantId status,
    Partitions order (docs.filter (tenantFilter tenantId status)) limit
      fun page => findByTenant order docs tenantId status page limit
  byFilter : ∀ order docs filter, Partitions order (docs.filter filter) limit
    fun page => findByFilter order docs filter page limit
  unresolved : ∀ order docs tenantId jobType,
    Partitions order (docs.filter (unresolvedFilter tenantId jobType)) limit
      fun page => findUnresolved order docs tenantId jobType page limit

/-- Pagination is a partition. -/
theorem listings_partition (limit : Nat) (positive : 1 ≤ limit) : ListingsPartition limit where
  byTenant order docs tenantId status :=
    paginate_partitions order docs (tenantFilter tenantId status) positive
  byFilter order docs filter := paginate_partitions order docs filter positive
  unresolved order docs tenantId jobType :=
    paginate_partitions order docs (unresolvedFilter tenantId jobType) positive

theorem listings_partition_twenty : ListingsPartition 20 := listings_partition 20 (by decide)

end JobScheduler
