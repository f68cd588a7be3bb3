import FerroProtocols.Lumberjack.Buffering
import FerroProtocols.Oci.FailedFinish
import FerroProtocols.Oci.SessionOrder
import FerroProtocols.Oci.Repush
import FerroProtocols.Oci.Catalog
import FerroProtocols.Oci.Pagination
import FerroProtocols.Oci.References
import FerroProtocols.Oci.Crashes
import FerroProtocols.BlobStore.FsRuns
import FerroProtocols.Cargo.Rollback
import FerroProtocols.Cargo.Reload
import FerroProtocols.Cargo.Lookup
import FerroProtocols.Maven.Blobs
import FerroProtocols.Maven.Downloads
import FerroProtocols.Maven.IndexRaces
import FerroProtocols.Maven.Newest
import FerroProtocols.Maven.Placement
import FerroProtocols.Maven.BuildRaces
import FerroProtocols.Maven.Isolation
import FerroProtocols.Maven.MetadataSidecars
import FerroProtocols.Airflow.Prescan
import FerroProtocols.Airflow.Dependencies
import FerroProtocols.Airflow.Contexts
import FerroProtocols.Airflow.Names
import FerroProtocols.Airflow.Invalidation
import FerroProtocols.Lumberjack.Transparency
import FerroProtocols.Lumberjack.Rotation
import FerroProtocols.Lumberjack.Truncation
import FerroProtocols.Oci.BlobAccounting
import FerroProtocols.Cargo.Body
import FerroProtocols.Airflow.Guard
import FerroProtocols.Airflow.Positions
import FerroProtocols.Lumberjack.Serial
