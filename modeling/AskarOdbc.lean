import AskarOdbc.Protect
import AskarOdbc.Tables
import AskarOdbc.World
import AskarOdbc.Backend
import AskarOdbc.Session
import AskarOdbc.Profiles
import AskarOdbc.Rekey
import AskarOdbc.CacheAside
import AskarOdbc.Resolution
import AskarOdbc.Entries
import AskarOdbc.EntryStore
import AskarOdbc.Atomicity
import AskarOdbc.Progress
import AskarOdbc.Updates
