import DsSqlDps.Catalog
import DsSqlDps.Dataplane.Outcome
import DsSqlDps.Dataplane.Copies
import DsSqlDps.Dataplane.Deadline
import DsSqlDps.Config.Ties
import DsSqlDps.Dataplane.Endpoint
import DsSqlDps.Dataplane.Reference
import DsSqlDps.Dataplane.AutoSeed
import DsSqlDps.Dataplane.HalfSeeded
import DsSqlDps.Dataplane.Seedings
import DsSqlDps.Dataplane.Gate
import DsSqlDps.Dataplane.Steps
import DsSqlDps.Dataplane.Public
import DsSqlDps.Lib.Histories
import DsSqlDps.Contreforts
import DsSqlDps.Dataplane.Faults
import DsSqlDps.Lib.Runs
import DsSqlDps.Net.Url
