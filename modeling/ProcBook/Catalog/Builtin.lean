/-
ProcBook/Catalog/Builtin.lean

The catalog that is shown when no other one is asked for: the procedures of a small database of users
and their roles.
-/
import ProcBook.Procedure

namespace ProcBook.Builtin

/-- The record of `LoginUser`. -/
def loginUser : Procedure where
  name := "LoginUser"
  body :=
    "\n" ++
    "CREATE PROCEDURE [dbo].[LoginUser]\n" ++
    "  @Email VARCHAR(100),\n" ++
    "  @Hash CHAR(64)\n" ++
    "AS\n" ++
    "BEGIN\n" ++
    "  SET NOCOUNT ON;\n" ++
    "\n" ++
    "  DECLARE @UserId INT;\n" ++
    "  DECLARE @CurrentDateTime DATETIME2 = GETUTCDATE();\n" ++
    "\n" ++
    "  -- Check if the email and hash match an active user\n" ++
    "  SELECT @UserId = u.Id\n" ++
    "  FROM [dbo].[User] u\n" ++
    "  INNER JOIN [dbo].[UserDetails] ud ON u.Id = ud.UserId\n" ++
    "  WHERE u.Email = @Email AND u.Hash = @Hash AND u.Archived = 0;\n" ++
    "\n" ++
    "  IF @UserId IS NOT NULL\n" ++
    "  BEGIN\n" ++
    "    -- Update the login success details\n" ++
    "    UPDATE [dbo].[UserDetails]\n" ++
    "    SET LastLoginDate = @CurrentDateTime,\n" ++
    "        LastLoginAttempt = @CurrentDateTime,\n" ++
    "        FailedLoginAttempts = 0\n" ++
    "    WHERE UserId = @UserId;\n" ++
    "\n" ++
    "    SELECT \n" ++
    "      u.Id,\n" ++
    "      u.Email,\n" ++
    "      ud.FirstName,\n" ++
    "      ud.LastName,\n" ++
    "      ud.PhoneNumber,\n" ++
    "      ud.Country,\n" ++
    "      ud.City,\n" ++
    "      ud.Address\n" ++
    "    FROM [dbo].[User] u\n" ++
    "    INNER JOIN [dbo].[UserDetails] ud ON u.Id = ud.UserId\n" ++
    "    WHERE u.Id = @UserId;\n" ++
    "  END\n" ++
    "  ELSE\n" ++
    "  BEGIN\n" ++
    "    -- Update the login failure details\n" ++
    "    UPDATE [dbo].[UserDetails]\n" ++
    "    SET LastLoginAttempt = @CurrentDateTime,\n" ++
    "        FailedLoginAttempts = FailedLoginAttempts + 1\n" ++
    "    WHERE EXISTS (SELECT 1 FROM [dbo].[User] WHERE Id = UserId AND Email = @Email);\n" ++
    "\n" ++
    "    SELECT NULL AS UserId, 'Login failed' AS Message;\n" ++
    "  END\n" ++
    "END;\n" ++
    "  "
  description :=
    "This procedure is used to authenticate a user by checking the email and hash against stored values. It updates the last login details on success and tracks failed login attempts."
  parameters := ["@Email VARCHAR(100)", "@Hash CHAR(64)"]
  returns := [
    "Id",
    "Email",
    "FirstName",
    "LastName",
    "PhoneNumber",
    "Country",
    "City",
    "Address"]
  references := ["[dbo].[User]", "[dbo].[UserDetails]"]
  notes := "This procedure is crucial for maintaining the security and integrity of the user login process, ensuring that successful logins are recorded and failed attempts are tracked."

/-- The record of `GetUserByEmail`. -/
def getUserByEmail : Procedure where
  name := "GetUserByEmail"
  body :=
    "SELECT * FROM [User] WHERE Email = @Email;"
  description :=
    "Retrieves a user's information based on their email address."
  parameters := ["@Email VARCHAR(255)"]
  returns := ["UserID", "FirstName", "LastName", "Email", "LastLoginDate"]
  references := ["[User]"]
  notes := "Version 1.0 - Created on 2024-08-12"

/-- The record of `AddNewUser`. -/
def addNewUser : Procedure where
  name := "AddNewUser"
  body :=
    "INSERT INTO [User] (UserID, FirstName, LastName, Email, CreatedDate) VALUES (@UserID, @FirstName, @LastName, @Email, GETDATE());"
  description :=
    "Adds a new user to the User table."
  parameters := [
    "@UserID UNIQUEIDENTIFIER",
    "@FirstName VARCHAR(100)",
    "@LastName VARCHAR(100)",
    "@Email VARCHAR(255)"]
  returns := ["AffectedRows"]
  references := ["[User]"]
  notes := "Version 1.1 - Last updated on 2024-08-12"

/-- The record of `UpdateUserDetails`. -/
def updateUserDetails : Procedure where
  name := "UpdateUserDetails"
  body :=
    "UPDATE [UserDetails] SET FirstName = @FirstName, LastName = @LastName WHERE UserID = @UserID;"
  description :=
    "Updates a user's details in the UserDetails table."
  parameters := [
    "@UserID UNIQUEIDENTIFIER",
    "@FirstName VARCHAR(100)",
    "@LastName VARCHAR(100)"]
  returns := ["AffectedRows"]
  references := ["[UserDetails]"]
  notes := "Version 2.0 - Revised on 2024-08-12"

/-- The record of `DeleteUser`. -/
def deleteUser : Procedure where
  name := "DeleteUser"
  body :=
    "DELETE FROM [User] WHERE UserID = @UserID;"
  description :=
    "Deletes a user from the User table based on their UserID."
  parameters := ["@UserID UNIQUEIDENTIFIER"]
  returns := ["AffectedRows"]
  references := ["[User]"]
  notes := "Version 1.0 - Created on 2024-08-12"

/-- The record of `GetAllUsers`. -/
def getAllUsers : Procedure where
  name := "GetAllUsers"
  body :=
    "SELECT * FROM [User];"
  description :=
    "Retrieves all users from the User table."
  returns := ["UserID", "FirstName", "LastName", "Email", "CreatedDate"]
  references := ["[User]"]
  notes := "Version 1.0 - Created on 2024-08-12"

/-- The record of `AddUserRole`. -/
def addUserRole : Procedure where
  name := "AddUserRole"
  body :=
    "INSERT INTO [UserRoles] (UserID, RoleID) VALUES (@UserID, @RoleID);"
  description :=
    "Associates a user with a role in the UserRoles table."
  parameters := ["@UserID UNIQUEIDENTIFIER", "@RoleID INT"]
  returns := ["AffectedRows"]
  references := ["[UserRoles]"]
  notes := "Version 1.0 - Created on 2024-08-12"

/-- The record of `GetUserRoles`. -/
def getUserRoles : Procedure where
  name := "GetUserRoles"
  body :=
    "SELECT r.RoleName FROM [Roles] r INNER JOIN [UserRoles] ur ON r.RoleID = ur.RoleID WHERE ur.UserID = @UserID;"
  description :=
    "Retrieves all roles associated with a user."
  parameters := ["@UserID UNIQUEIDENTIFIER"]
  returns := ["RoleName"]
  references := ["[UserRoles]", "[Roles]"]
  notes := "Version 1.0 - Created on 2024-08-12"

/-- The record of `UpdateUserLastLogin`. -/
def updateUserLastLogin : Procedure where
  name := "UpdateUserLastLogin"
  body :=
    "UPDATE [User] SET LastLoginDate = GETDATE() WHERE UserID = @UserID;"
  description :=
    "Updates the last login date for a user."
  parameters := ["@UserID UNIQUEIDENTIFIER"]
  returns := ["AffectedRows"]
  references := ["[User]"]
  notes := "Version 1.0 - Created on 2024-08-12"

/-- The record of `GetUsersByRole`. -/
def getUsersByRole : Procedure where
  name := "GetUsersByRole"
  body :=
    "SELECT u.* FROM [User] u INNER JOIN [UserRoles] ur ON u.UserID = ur.UserID WHERE ur.RoleID = @RoleID;"
  description :=
    "Retrieves all users associated with a specific role."
  parameters := ["@RoleID INT"]
  returns := ["UserID", "FirstName", "LastName", "Email", "CreatedDate"]
  references := ["[User]", "[UserRoles]"]
  notes := "Version 1.0 - Created on 2024-08-12"

/-- The record of `LogUserAction`. -/
def logUserAction : Procedure where
  name := "LogUserAction"
  body :=
    "INSERT INTO [UserActions] (UserID, Action, ActionDate) VALUES (@UserID, @Action, GETDATE());"
  description :=
    "Logs a user's action in the UserActions table."
  parameters := ["@UserID UNIQUEIDENTIFIER", "@Action VARCHAR(255)"]
  returns := ["AffectedRows"]
  references := ["[UserActions]"]
  notes := "Version 1.0 - Created on 2024-08-12"

/-- The records of the built-in catalog. -/
def records : List Procedure := [
  loginUser, getUserByEmail, addNewUser, updateUserDetails, deleteUser,
  getAllUsers, addUserRole, getUserRoles, updateUserLastLogin, getUsersByRole, logUserAction]

end ProcBook.Builtin
